/-
# ZeroExApi.MakerBalanceCacheRunner — the worker that samples balances of makers

`rfq_maker_balance_cache_runner.ts`.  For each new block the worker reads which makers the table
knows, asks the chain for the lesser of balance and allowance of each, a thousand at a time, and
saves what it is answered with the time it began to ask.  It is a state machine: it waits for one
answer at a time, except that the calls of one pass are answered in any order.

A worker runs for ever unless one of two counters of errors reaches ten; the counters are never
reset (`Worker.top`).

The table is that of `MakerBalanceChainCacheEntity`.  Web processes only insert, and only where the
key is free; the worker only updates.  `encodeAddress` is the ABI encoder's way from a string to an
address, which fails for what is none.
-/

import ZeroExApi.BalanceChecker
import ZeroExApi.FirmQuoteValidator
import ZeroExApi.ResultCache
import ZeroExApi.Lib.Chunks
import ZeroExApi.Lib.Decimal

namespace ZeroExApi.MakerBalanceCacheRunner

open ZeroExApi.Lib ZeroExApi.Lib.Chunks ZeroExApi.Lib.Fallible ZeroExApi.BalanceChecker
open ZeroExApi.FirmQuoteValidator (MakerBalanceChainCacheEntity NewMaker)
open ZeroExApi.ResultCache (Cache CachedResult Settings)

/-! ## Constants -/

/-- In milliseconds. -/
def RFQ_FIRM_QUOTE_CACHE_EXPIRY : ℕ := 2 * 60000

def CACHE_MAKER_TOKENS_FOR_MS : ℕ := RFQ_FIRM_QUOTE_CACHE_EXPIRY / 4

def DELAY_WHEN_NEW_BLOCK_FOUND : ℕ := 5 * 1000

def DELAY_WHEN_NEW_BLOCK_NOT_FOUND : ℕ := 1000

def MAX_BALANCE_CHECKS_PER_CALL : ℕ := 1000

def MAX_REQUEST_ERRORS : ℕ := 10

def MAX_CACHE_RFQ_BALANCES_ERRORS : ℕ := 10

def RFQ_ALLOWANCE_TARGET : String := "0xdef1c0ded9bec7f1a1670819833240f027b25eff"

theorem checks_pos : 0 < MAX_BALANCE_CHECKS_PER_CALL := by decide

/-! ## The table -/

/-- The rows of `maker_balance_chain_cache`. -/
abbrev Table := List MakerBalanceChainCacheEntity

/-- The primary key: token and maker. -/
def key (row : MakerBalanceChainCacheEntity) : String × String :=
  (row.tokenAddress, row.makerAddress)

/-- The query of the validator. -/
def findRows (table : Table) (makerToken : String) (makerAddresses : List String) : Table :=
  table.filter fun row => row.tokenAddress == makerToken && makerAddresses.contains row.makerAddress

/-- One value of the insertion; `ON CONFLICT DO NOTHING`. -/
def insertRow (now : ℕ) (table : Table) (newMaker : NewMaker) : Table :=
  if (newMaker.tokenAddress, newMaker.makerAddress) ∈ table.map key then
    table
  else
    table ++ [⟨newMaker.tokenAddress, newMaker.makerAddress, some now, none, none⟩]

/-- The insertion of new makers, at the time of the database. -/
def insertNewMakers (now : ℕ) (table : Table) (newMakers : List NewMaker) : Table :=
  newMakers.foldl (insertRow now) table

/-- The entity that `updateErc20BalancesAsync` saves. -/
structure SampledBalance where
  makerAddress : String
  tokenAddress : Option String
  balance : BigNumber
  timeOfSample : ℕ
  deriving DecidableEq

/-- `BigNumberTransformer`: what is read of a column that was written, which is a string. -/
def transformed (balance : BigNumber) : BigNumber := BigNumber.ofString balance.toString

/-- `save` of one entity.  A row that is not there would be inserted without the time it was first
seen, which may not be null. -/
def saveRow (table : Table) (dbEntity : SampledBalance) : Option Table :=
  match dbEntity.tokenAddress with
  | none => none
  | some tokenAddress =>
    if (tokenAddress, dbEntity.makerAddress) ∈ table.map key then
      some (table.map fun row =>
        if key row = (tokenAddress, dbEntity.makerAddress) then
          { row with
            balance := some (transformed dbEntity.balance)
            timeOfSample := some dbEntity.timeOfSample }
        else
          row)
    else
      none

/-- `save`, in one transaction. -/
def save (table : Table) (toSave : List SampledBalance) : Option Table :=
  toSave.foldlM saveRow table

/-! ## One pass -/

/-- A partial entity: the two columns that are selected. -/
structure MakerToken where
  tokenAddress : String
  makerAddress : String
  deriving DecidableEq

/-- The query of `getMakerTokensAsync`. -/
def makerTokens (table : Table) : List MakerToken :=
  table.map fun row => ⟨row.tokenAddress, row.makerAddress⟩

/-- `MAKER_TOKEN_CACHE`, read without an argument; an array is truthy. -/
def MAKER_TOKEN_CACHE : Settings Unit (List MakerToken) where
  key _ := "undefined"
  key_injective _ _ _ := rfl
  truthy _ := true
  cacheExpiryMs := CACHE_MAKER_TOKENS_FOR_MS

/-- `BalancesCallInput`. -/
structure BalancesCallInput where
  addresses : List String
  tokens : List String
  deriving DecidableEq

/-- `splitValues`. -/
def splitValues (makerTokens : List MakerToken) : BalancesCallInput :=
  makerTokens.foldl
    (fun input makerToken =>
      { addresses := input.addresses ++ [makerToken.makerAddress]
        tokens := input.tokens ++ [makerToken.tokenAddress] })
    { addresses := [], tokens := [] }

/-- The calls of `getErc20BalancesAsync`. -/
def balanceCalls (balancesCallInput : BalancesCallInput) :
    List (Option (List String) × Option (List String)) :=
  zipChunks MAX_BALANCE_CHECKS_PER_CALL balancesCallInput.addresses balancesCallInput.tokens

section Chain

variable {Address : Type} [DecidableEq Address] (encodeAddress : String → Except JsError Address)

/-- A call that reverts is a promise that is rejected. -/
def rejectRevert {α : Type} : Except Revert α → Except JsError α
  | .ok a => .ok a
  | .error _ => .error (.error "execution reverted")

/-- One call, on the chain as it is. -/
def callAsync (chain : ChainState Address) (call : Option (List String) × Option (List String)) :
    Except JsError (List ℕ) :=
  match call with
  | (some addressesChunk, some tokensChunk) => do
    let users ← addressesChunk.mapM encodeAddress
    let tokens ← tokensChunk.mapM encodeAddress
    let spender ← encodeAddress RFQ_ALLOWANCE_TARGET
    rejectRevert (getMinOfBalancesOrAllowances chain users tokens spender)
  | _ => .error .typeError

/-- What the chain would answer for one pair. -/
def sampleOf (chain : ChainState Address) (makerAddress tokenAddress : String) :
    Except JsError ℕ := do
  let user ← encodeAddress makerAddress
  let token ← encodeAddress tokenAddress
  let spender ← encodeAddress RFQ_ALLOWANCE_TARGET
  rejectRevert (minOfBalanceOrAllowance chain spender user token)

end Chain

/-- `new BigNumber(balances[i])`; the balances are strings. -/
def parseBalance : Option ℕ → BigNumber
  | some balance => BigNumber.ofString (Decimal.natString balance)
  | none => .nan

/-- What `updateErc20BalancesAsync` saves. -/
def toSave (balancesCallInput : BalancesCallInput) (balances : List ℕ) (updateTime : ℕ) :
    List SampledBalance :=
  balancesCallInput.addresses.mapIdx fun i addr =>
    { makerAddress := addr
      tokenAddress := balancesCallInput.tokens[i]?
      balance := parseBalance balances[i]?
      timeOfSample := updateTime }

/-! ## The worker -/

/-- What a worker waits for. -/
inductive Phase where
  /-- The number of the latest block. -/
  | requestingBlock
  /-- The makers that the table knows; the call of the cache has a number. -/
  | readingMakerTokens (newBlock call : ℕ)
  /-- The balances, call by call. -/
  | checkingBalances (newBlock updateTime : ℕ) (balancesCallInput : BalancesCallInput)
      (balances : List (Option (List ℕ)))
  /-- The database. -/
  | saving (newBlock : ℕ) (toSave : List SampledBalance)
  /-- The end of a delay. -/
  | delaying (until_ : ℕ)
  /-- Nothing: the process has exited. -/
  | exited (message : String)
  deriving DecidableEq

/-- The variables of `runRfqBalanceCacheAsync`, with the cache of its module. -/
structure Worker where
  phase : Phase
  blockRequestErrors : ℕ
  cacheRfqBalanceErrors : ℕ
  lastBlockSeen : ℤ
  makerTokenCache : Cache Unit (List MakerToken)

namespace Worker

/-- The tests at the top of the loop. -/
def top (w : Worker) : Worker :=
  if w.blockRequestErrors ≥ MAX_REQUEST_ERRORS then
    { w with
      phase := .exited "too many bad Web3 requests to fetch blocks (reached limit of 10)" }
  else if w.cacheRfqBalanceErrors ≥ MAX_CACHE_RFQ_BALANCES_ERRORS then
    { w with
      phase :=
        .exited "too many errors from calling cacheRfqBalancesAsync (reached limit of 10)" }
  else
    { w with phase := .requestingBlock }

/-- A process that has just been started. -/
def initial : Worker :=
  top {
    phase := .requestingBlock
    blockRequestErrors := 0
    cacheRfqBalanceErrors := 0
    lastBlockSeen := -1
    makerTokenCache := { now := 0, resultCache := fun _ => none, calls := .empty } }

/-- The `catch` around `cacheRfqBalancesAsync`. -/
def passFailed (w : Worker) : Worker :=
  top { w with cacheRfqBalanceErrors := w.cacheRfqBalanceErrors + 1 }

/-- `Promise.all`, and what follows it when every call is answered. -/
def collect (w : Worker) (newBlock updateTime : ℕ) (balancesCallInput : BalancesCallInput)
    (balances : List (Option (List ℕ))) : Worker :=
  match balances.mapM id with
  | some answers =>
    { w with phase := .saving newBlock (toSave balancesCallInput answers.flatten updateTime) }
  | none => { w with phase := .checkingBalances newBlock updateTime balancesCallInput balances }

/-- `cacheRfqBalancesAsync` behind `getMakerTokensAsync`. -/
def checkBalances (w : Worker) (now newBlock : ℕ) (makerTokens : List MakerToken) : Worker :=
  let balancesCallInput := splitValues makerTokens
  w.collect newBlock now balancesCallInput
    (List.replicate (balanceCalls balancesCallInput).length none)

/-- `cacheRfqBalancesAsync` up to the first answer it waits for. -/
def cacheRfqBalances (w : Worker) (now newBlock : ℕ) : Worker :=
  let (makerTokenCache, cached) :=
    { w.makerTokenCache with now := now }.getResult MAKER_TOKEN_CACHE ()
  match cached with
  | some cached => { w with makerTokenCache }.checkBalances now newBlock cached.result
  | none =>
    { w with
      makerTokenCache
      phase := .readingMakerTokens newBlock w.makerTokenCache.calls.started }

/-- The block number arrives, or the request fails. -/
def onBlockNumber (w : Worker) (now : ℕ) (newBlock : Option ℕ) : Worker :=
  match w.phase, newBlock with
  | .requestingBlock, none => top { w with blockRequestErrors := w.blockRequestErrors + 1 }
  | .requestingBlock, some newBlock =>
    if w.lastBlockSeen < newBlock then
      w.cacheRfqBalances now newBlock
    else
      { w with phase := .delaying (now + DELAY_WHEN_NEW_BLOCK_NOT_FOUND) }
  | _, _ => w

/-- The query for the makers is answered from the table as it is, or fails. -/
def onMakerTokens (w : Worker) (now : ℕ) (table : Table) (ok : Bool) : Worker :=
  match w.phase with
  | .readingMakerTokens newBlock call =>
    match w.makerTokenCache.calls.call? call with
    | none => w
    | some waiting =>
      let cache := { w.makerTokenCache with now := now }
      if ok then
        let (makerTokenCache, cached) :=
          cache.afterResult MAKER_TOKEN_CACHE call waiting (makerTokens table)
        { w with makerTokenCache }.checkBalances now newBlock cached.result
      else
        match cache.afterError MAKER_TOKEN_CACHE call waiting () with
        | (makerTokenCache, .ok cached) =>
          { w with makerTokenCache }.checkBalances now newBlock cached.result
        | (makerTokenCache, .error _) => { w with makerTokenCache }.passFailed
  | _ => w

/-- The call for one group of balances is answered from the chain as it is, or fails. -/
def onBalances {Address : Type} [DecidableEq Address]
    (encodeAddress : String → Except JsError Address) (w : Worker) (chain : ChainState Address)
    (i : ℕ) (ok : Bool) : Worker :=
  match w.phase with
  | .checkingBalances newBlock updateTime balancesCallInput balances =>
    match (balanceCalls balancesCallInput)[i]?, balances[i]? with
    | some call, some none =>
      match ok, callAsync encodeAddress chain call with
      | true, .ok answer =>
        w.collect newBlock updateTime balancesCallInput (balances.set i (some answer))
      | _, _ => w.passFailed
    | _, _ => w
  | _ => w

/-- The database answers. -/
def onSaved (w : Worker) (now : ℕ) (table : Table) (ok : Bool) : Worker × Table :=
  match w.phase with
  | .saving newBlock toSave =>
    match ok, save table toSave with
    | true, some table =>
      ({ w with
        lastBlockSeen := newBlock
        phase := .delaying (now + DELAY_WHEN_NEW_BLOCK_FOUND) }, table)
    | _, _ => (w.passFailed, table)
  | _ => (w, table)

/-- A delay is over. -/
def onDelayed (w : Worker) (now : ℕ) : Worker :=
  match w.phase with
  | .delaying until_ => if until_ ≤ now then w.top else w
  | _ => w

end Worker

/-! ## The calls of a pass -/

section Pass

/-- The pairs of a pass, in order. -/
def pairs (balancesCallInput : BalancesCallInput) : List (String × String) :=
  balancesCallInput.addresses.zip balancesCallInput.tokens

/-- The pairs of a pass in the groups they are asked for in. -/
def pairGroups (balancesCallInput : BalancesCallInput) : List (List (String × String)) :=
  chunk MAX_BALANCE_CHECKS_PER_CALL (pairs balancesCallInput)

theorem splitValues_eq (makerTokens : List MakerToken) :
    splitValues makerTokens =
      { addresses := makerTokens.map MakerToken.makerAddress
        tokens := makerTokens.map MakerToken.tokenAddress } := by
  have hfrom : ∀ (input : BalancesCallInput), makerTokens.foldl
      (fun input makerToken =>
        { addresses := input.addresses ++ [makerToken.makerAddress]
          tokens := input.tokens ++ [makerToken.tokenAddress] }) input =
      { addresses := input.addresses ++ makerTokens.map MakerToken.makerAddress
        tokens := input.tokens ++ makerTokens.map MakerToken.tokenAddress } := by
    induction makerTokens with
    | nil =>
      intro input
      simp
    | cons makerToken makerTokens ih =>
      intro input
      rw [List.foldl_cons, ih]
      simp
  rw [splitValues, hfrom]
  rfl

theorem length_splitValues (makerTokens : List MakerToken) :
    (splitValues makerTokens).addresses.length = (splitValues makerTokens).tokens.length := by
  rw [splitValues_eq, List.length_map, List.length_map]

theorem pairs_splitValues (makerTokens : List MakerToken) :
    pairs (splitValues makerTokens) = makerTokens.map fun makerToken =>
      (makerToken.makerAddress, makerToken.tokenAddress) := by
  unfold pairs
  rw [splitValues_eq, List.zip_map']

/-- Each call is for a group of pairs. -/
theorem balanceCalls_eq {balancesCallInput : BalancesCallInput}
    (hlen : balancesCallInput.addresses.length = balancesCallInput.tokens.length) :
    balanceCalls balancesCallInput = (pairGroups balancesCallInput).map fun group =>
      (some (group.map Prod.fst), some (group.map Prod.snd)) :=
  zipChunks_eq checks_pos hlen

theorem rejectRevert_eq_ok {α : Type} {x : Except Revert α} {a : α} :
    rejectRevert x = .ok a ↔ x = .ok a := by
  cases x with
  | ok b => exact ⟨fun h => by cases h; rfl, fun h => by cases h; rfl⟩
  | error e => exact ⟨nofun, nofun⟩

section Call

variable {Address : Type} [DecidableEq Address] {encodeAddress : String → Except JsError Address}
  {chain : ChainState Address}

/-- One call has one answer for each pair of its group, which is what the chain would answer for
that pair alone. -/
theorem callAsync_forall₂ {group : List (String × String)} {answer : List ℕ}
    (h : callAsync encodeAddress chain (some (group.map Prod.fst), some (group.map Prod.snd)) =
      .ok answer) :
    List.Forall₂ (fun pair n => sampleOf encodeAddress chain pair.1 pair.2 = .ok n) group
      answer := by
  unfold callAsync at h
  obtain ⟨users, husers, h₁⟩ := bind_eq_ok.mp h
  obtain ⟨tokens, htokens, h₂⟩ := bind_eq_ok.mp h₁
  obtain ⟨spender, hspender, h₃⟩ := bind_eq_ok.mp h₂
  obtain ⟨hlen, hanswer⟩ := forEachPair_eq_ok.mp (rejectRevert_eq_ok.mp h₃)
  rw [mapM_eq_ok_iff, List.forall₂_map_left_iff] at husers htokens
  clear h h₁ h₂ h₃ hlen
  -- the four lists are gone through side by side
  induction group generalizing users tokens answer with
  | nil =>
    rw [List.forall₂_nil_left_iff] at husers
    subst husers
    rw [List.zip_nil_left, List.forall₂_nil_left_iff] at hanswer
    rw [hanswer]
    exact .nil
  | cons pair group ih =>
    obtain ⟨user, users, huser, husers', rfl⟩ := List.forall₂_cons_left_iff.mp husers
    obtain ⟨token, tokens, htoken, htokens', rfl⟩ := List.forall₂_cons_left_iff.mp htokens
    rw [List.zip_cons_cons] at hanswer
    obtain ⟨n, answer, hn, hanswer', rfl⟩ := List.forall₂_cons_left_iff.mp hanswer
    refine .cons ?_ (ih users husers' tokens htokens' hanswer')
    unfold sampleOf
    rw [huser, htoken, hspender]
    exact rejectRevert_eq_ok.mpr hn

end Call

theorem parseBalance_some (n : ℕ) : parseBalance (some n) = .fin n := by
  show BigNumber.ofString (Decimal.natString n) = .fin n
  rw [← BigNumber.toString_natCast, BigNumber.ofString_toString_natCast]

/-- An entity is saved for each maker of a pass, whatever was answered. -/
theorem map_toSave (makerTokens : List MakerToken) (balances : List ℕ) (updateTime : ℕ) :
    (toSave (splitValues makerTokens) balances updateTime).map
        (fun dbEntity => (dbEntity.makerAddress, dbEntity.tokenAddress, dbEntity.timeOfSample)) =
      makerTokens.map fun makerToken =>
        (makerToken.makerAddress, some makerToken.tokenAddress, updateTime) := by
  rw [toSave, splitValues_eq]
  apply List.ext_getElem
  · simp
  · intro i hi hi'
    rw [List.length_map] at hi'
    simp [hi']

/-- With an amount for each pair, an entity is saved for each pair. -/
theorem toSave_eq {balancesCallInput : BalancesCallInput} {balances : List ℕ}
    (hlen : balancesCallInput.addresses.length = balancesCallInput.tokens.length)
    (hbalances : (pairs balancesCallInput).length = balances.length) (updateTime : ℕ) :
    toSave balancesCallInput balances updateTime =
      ((pairs balancesCallInput).zip balances).map fun asked =>
        ⟨asked.1.1, some asked.1.2, .fin (asked.2 : ℕ), updateTime⟩ := by
  have hpairs : (pairs balancesCallInput).length = balancesCallInput.addresses.length := by
    rw [pairs, List.length_zip, hlen, min_self]
  unfold toSave
  apply List.ext_getElem
  · rw [List.length_mapIdx, List.length_map, List.length_zip, ← hbalances, hpairs, min_self]
  · intro i hi hi'
    rw [List.length_mapIdx] at hi
    have htoken : i < balancesCallInput.tokens.length := hlen ▸ hi
    have hbalance : i < balances.length := by omega
    rw [List.getElem_mapIdx, List.getElem_map, List.getElem?_eq_getElem htoken,
      List.getElem?_eq_getElem hbalance, parseBalance_some]
    simp only [pairs, List.getElem_zip]

end Pass

/-! ## What is written to the table -/

section Write

variable {table table' : Table} {entities : List SampledBalance}

/-- An entity is of the row. -/
def IsOf (dbEntity : SampledBalance) (row : MakerBalanceChainCacheEntity) : Prop :=
  dbEntity.tokenAddress = some row.tokenAddress ∧ dbEntity.makerAddress = row.makerAddress

/-- What `save` makes of a row: the row, or the row with the sample of an entity of it. -/
structure Rewritten (entities : List SampledBalance) (row row' : MakerBalanceChainCacheEntity) :
    Prop where
  key_eq : key row' = key row
  timeFirstSeen_eq : row'.timeFirstSeen = row.timeFirstSeen
  sample : row' = row ∨ ∃ dbEntity ∈ entities, IsOf dbEntity row ∧
    row'.balance = some (transformed dbEntity.balance) ∧
    row'.timeOfSample = some (dbEntity.timeOfSample : ℤ)
  hit : (∃ dbEntity ∈ entities, IsOf dbEntity row) →
    ∃ dbEntity ∈ entities, IsOf dbEntity row ∧
      row'.balance = some (transformed dbEntity.balance) ∧
      row'.timeOfSample = some (dbEntity.timeOfSample : ℤ)

theorem Rewritten.refl (row : MakerBalanceChainCacheEntity) : Rewritten [] row row :=
  ⟨rfl, rfl, .inl rfl, fun ⟨_, h, _⟩ => absurd h List.not_mem_nil⟩

theorem Rewritten.isOf {row row' : MakerBalanceChainCacheEntity} (h : Rewritten entities row row')
    (dbEntity : SampledBalance) : IsOf dbEntity row' ↔ IsOf dbEntity row := by
  obtain ⟨htoken, hmaker⟩ := Prod.mk.inj h.key_eq
  unfold IsOf
  rw [htoken, hmaker]

/-- One entity, and then the others. -/
theorem Rewritten.cons {dbEntity : SampledBalance} {row row' row'' : MakerBalanceChainCacheEntity}
    (h : Rewritten [dbEntity] row row') (h' : Rewritten entities row' row'') :
    Rewritten (dbEntity :: entities) row row'' := by
  have hlater : (∃ e ∈ entities, IsOf e row' ∧ row''.balance = some (transformed e.balance) ∧
      row''.timeOfSample = some (e.timeOfSample : ℤ)) → ∃ e ∈ dbEntity :: entities, IsOf e row ∧
        row''.balance = some (transformed e.balance) ∧
        row''.timeOfSample = some (e.timeOfSample : ℤ) := by
    rintro ⟨e, he, hof, hsample⟩
    exact ⟨e, List.mem_cons_of_mem _ he, (h.isOf e).mp hof, hsample⟩
  have hnow : (∃ e ∈ [dbEntity], IsOf e row ∧ row'.balance = some (transformed e.balance) ∧
      row'.timeOfSample = some (e.timeOfSample : ℤ)) → row'' = row' →
        ∃ e ∈ dbEntity :: entities, IsOf e row ∧ row''.balance = some (transformed e.balance) ∧
          row''.timeOfSample = some (e.timeOfSample : ℤ) := by
    rintro ⟨e, he, hsample⟩ rfl
    rw [List.mem_singleton.mp he] at hsample
    exact ⟨dbEntity, List.mem_cons_self, hsample⟩
  refine ⟨h'.key_eq.trans h.key_eq, h'.timeFirstSeen_eq.trans h.timeFirstSeen_eq, ?_, ?_⟩
  · rcases h'.sample with hsame | hsample
    · rcases h.sample with hfirst | hfirst
      · exact .inl (hsame.trans hfirst)
      · exact .inr (hnow hfirst hsame)
    · exact .inr (hlater hsample)
  · rintro ⟨e, he, hof⟩
    rcases h'.sample with hsame | hsample
    · rcases List.mem_cons.mp he with rfl | hrest
      · exact hnow (h.hit ⟨e, List.mem_singleton_self e, hof⟩) hsame
      · exact hlater (h'.hit ⟨e, hrest, (h.isOf e).mpr hof⟩)
    · exact hlater hsample

/-- One entity is saved if its row is there. -/
theorem saveRow_spec {dbEntity : SampledBalance} (h : saveRow table dbEntity = some table') :
    List.Forall₂ (Rewritten [dbEntity]) table table' := by
  unfold saveRow at h
  split at h
  · cases h
  · rename_i tokenAddress htoken
    split at h
    · cases h
      rw [List.forall₂_map_right_iff, List.forall₂_same]
      intro row _
      split
      · rename_i hkey
        obtain ⟨hrowToken, hrowMaker⟩ := Prod.mk.inj hkey
        have hof : IsOf dbEntity row := ⟨by rw [htoken, hrowToken], hrowMaker.symm⟩
        have hsample : ∃ e ∈ [dbEntity], IsOf e row ∧ (some (transformed dbEntity.balance) =
            some (transformed e.balance)) ∧
              (some (dbEntity.timeOfSample : ℤ) = some (e.timeOfSample : ℤ)) :=
          ⟨dbEntity, List.mem_singleton_self _, hof, rfl, rfl⟩
        exact ⟨rfl, rfl, .inr hsample, fun _ => hsample⟩
      · rename_i hkey
        refine ⟨rfl, rfl, .inl rfl, ?_⟩
        rintro ⟨e, he, hof⟩
        rw [List.mem_singleton.mp he] at hof
        rw [hof.1] at htoken
        cases htoken
        exact absurd (by rw [key, hof.2]) hkey
    · cases h

/-- `save` rewrites rows in their places. -/
theorem save_spec (h : save table entities = some table') :
    List.Forall₂ (Rewritten entities) table table' := by
  unfold save at h
  induction entities generalizing table with
  | nil =>
    rw [List.foldlM_nil] at h
    cases h
    rw [List.forall₂_same]
    exact fun row _ => .refl row
  | cons dbEntity entities ih =>
    rw [List.foldlM_cons] at h
    obtain ⟨next, hnext, hrest⟩ := Option.bind_eq_some_iff.mp h
    have hfirst := saveRow_spec hnext
    have hothers := ih hrest
    clear ih h hrest hnext
    induction hfirst generalizing table' with
    | nil =>
      rw [List.forall₂_nil_left_iff] at hothers
      rw [hothers]
      exact .nil
    | cons hrow _ ih =>
      obtain ⟨_, _, hrow', hothers', rfl⟩ := List.forall₂_cons_left_iff.mp hothers
      exact .cons (hrow.cons hrow') (ih hothers')

theorem map_key_of_rewritten (h : List.Forall₂ (Rewritten entities) table table') :
    table'.map key = table.map key := by
  induction h with
  | nil => rfl
  | cons hrow _ ih => rw [List.map_cons, List.map_cons, hrow.key_eq, ih]

/-- Entities of rows that are there are saved. -/
theorem exists_save (h : ∀ dbEntity ∈ entities, ∃ tokenAddress,
      dbEntity.tokenAddress = some tokenAddress ∧
        (tokenAddress, dbEntity.makerAddress) ∈ table.map key) :
    ∃ table', save table entities = some table' := by
  unfold save
  induction entities generalizing table with
  | nil => exact ⟨table, rfl⟩
  | cons dbEntity entities ih =>
    obtain ⟨tokenAddress, htoken, hmem⟩ := h dbEntity List.mem_cons_self
    have hfirst : ∃ next, saveRow table dbEntity = some next := by
      unfold saveRow
      rw [htoken]
      dsimp only
      rw [if_pos hmem]
      exact ⟨_, rfl⟩
    obtain ⟨next, hnext⟩ := hfirst
    have hkeys := map_key_of_rewritten (saveRow_spec hnext)
    have hrest : ∀ e ∈ entities, ∃ tokenAddress, e.tokenAddress = some tokenAddress ∧
        (tokenAddress, e.makerAddress) ∈ next.map key := by
      intro e he
      rw [hkeys]
      exact h e (List.mem_cons_of_mem _ he)
    obtain ⟨table', htable'⟩ := ih hrest
    refine ⟨table', ?_⟩
    rw [List.foldlM_cons, hnext]
    exact htable'

/-- What an insertion adds has a key that was free. -/
theorem insertRow_cases (now : ℕ) (table : Table) (newMaker : NewMaker) :
    insertRow now table newMaker = table ∨
      ((newMaker.tokenAddress, newMaker.makerAddress) ∉ table.map key ∧
        insertRow now table newMaker =
          table ++ [⟨newMaker.tokenAddress, newMaker.makerAddress, some now, none, none⟩]) := by
  unfold insertRow
  split
  · exact .inl rfl
  · rename_i hfree
    exact .inr ⟨hfree, rfl⟩

/-- An insertion leaves the rows that are there, and behind it each of its keys is taken. -/
theorem insertNewMakers_spec (now : ℕ) (table : Table) (newMakers : List NewMaker) :
    ∃ added, insertNewMakers now table newMakers = table ++ added ∧
      (∀ row ∈ added, row.timeFirstSeen = some (now : ℤ) ∧ row.balance = none ∧
        row.timeOfSample = none ∧ ⟨row.makerAddress, row.tokenAddress⟩ ∈ newMakers) ∧
      ((table.map key).Nodup → ((table ++ added).map key).Nodup) ∧
      ∀ newMaker ∈ newMakers,
        (newMaker.tokenAddress, newMaker.makerAddress) ∈ (table ++ added).map key := by
  unfold insertNewMakers
  induction newMakers generalizing table with
  | nil => exact ⟨[], by simp⟩
  | cons newMaker newMakers ih =>
    obtain ⟨added, hadded, hnew, hnodup, htaken⟩ := ih (insertRow now table newMaker)
    rw [List.foldl_cons, hadded]
    rcases insertRow_cases now table newMaker with hsame | ⟨hfree, happended⟩
    · rw [hsame] at hnodup htaken ⊢
      refine ⟨added, rfl, ?_, hnodup, ?_⟩
      · intro row hrow
        obtain ⟨h₁, h₂, h₃, h₄⟩ := hnew row hrow
        exact ⟨h₁, h₂, h₃, List.mem_cons_of_mem _ h₄⟩
      · rw [List.forall_mem_cons]
        refine ⟨?_, htaken⟩
        rw [List.map_append]
        apply List.mem_append_left
        by_contra hfree
        have happended : insertRow now table newMaker = table ++ _ := if_neg hfree
        rw [hsame] at happended
        exact absurd happended (by simp)
    · rw [happended] at hnodup htaken ⊢
      set row₀ : MakerBalanceChainCacheEntity :=
        ⟨newMaker.tokenAddress, newMaker.makerAddress, some now, none, none⟩ with hrow₀
      rw [List.append_assoc, List.singleton_append] at hnodup htaken ⊢
      refine ⟨row₀ :: added, rfl, ?_, ?_, ?_⟩
      · rw [List.forall_mem_cons]
        refine ⟨⟨rfl, rfl, rfl, List.mem_cons_self⟩, ?_⟩
        intro row hrow
        obtain ⟨h₁, h₂, h₃, h₄⟩ := hnew row hrow
        exact ⟨h₁, h₂, h₃, List.mem_cons_of_mem _ h₄⟩
      · intro hkeys
        apply hnodup
        rw [List.map_append, List.nodup_append]
        refine ⟨hkeys, List.nodup_singleton _, ?_⟩
        intro a ha b hb heq
        rw [List.map_singleton, List.mem_singleton] at hb
        have hkey : a = (newMaker.tokenAddress, newMaker.makerAddress) := heq.trans hb
        exact hfree (hkey ▸ ha)
      · rw [List.forall_mem_cons]
        refine ⟨?_, htaken⟩
        exact List.mem_map.mpr ⟨row₀, by simp, rfl⟩

end Write

/-! ## What a worker has on record -/

/-- A balance that has been sampled. -/
structure Sample where
  makerAddress : String
  tokenAddress : String
  balance : ℕ
  timeOfSample : ℕ

/-- Rows have the sample. -/
def IsInRows (rows : Table) (sample : Sample) : Prop :=
  ∃ row ∈ rows, row.makerAddress = sample.makerAddress ∧ row.tokenAddress = sample.tokenAddress ∧
    row.balance = some (.fin (sample.balance : ℕ)) ∧
    row.timeOfSample = some (sample.timeOfSample : ℤ)

/-- A pass has the sample: among the answers so far, or on its way to the table. -/
def IsInPass : Phase → Sample → Prop
  | .checkingBalances _ updateTime balancesCallInput balances, sample =>
    sample.timeOfSample = updateTime ∧
      ∃ (i : ℕ) (group : List (String × String)) (answer : List ℕ),
      (pairGroups balancesCallInput)[i]? = some group ∧ balances[i]? = some (some answer) ∧
        ((sample.makerAddress, sample.tokenAddress), sample.balance) ∈ group.zip answer
  | .saving _ toSave, sample =>
    ⟨sample.makerAddress, some sample.tokenAddress, .fin (sample.balance : ℕ),
      sample.timeOfSample⟩ ∈ toSave
  | _, _ => False

/-- The table has rows for these makers. -/
def Known (table : Table) (makerTokens : List MakerToken) : Prop :=
  ∀ makerToken ∈ makerTokens,
    (makerToken.tokenAddress, makerToken.makerAddress) ∈ table.map key

/-- No row was sampled later. -/
def SampledBy (table : Table) (time : ℕ) : Prop :=
  ∀ row ∈ table, ∀ t, row.timeOfSample = some t → t ≤ (time : ℤ)

/-- A pass that asks for balances: it is about makers that the table knows, no row is younger than
the pass, and the answers so far fit their questions. -/
structure Asking (table : Table) (now updateTime : ℕ) (balancesCallInput : BalancesCallInput)
    (balances : List (Option (List ℕ))) : Prop where
  updateTime_le : updateTime ≤ now
  sampledBy : SampledBy table updateTime
  known : ∃ makerTokens, balancesCallInput = splitValues makerTokens ∧ Known table makerTokens
  answers : List.Forall₂ (fun group answer => ∀ a, answer = some a → group.length = a.length)
    (pairGroups balancesCallInput) balances

/-- A pass that saves: what it saves was sampled at one time, and its rows are there. -/
structure Saving (table : Table) (now updateTime : ℕ) (toSave : List SampledBalance) : Prop where
  updateTime_le : updateTime ≤ now
  sampledBy : SampledBy table updateTime
  sampled : ∀ dbEntity ∈ toSave, dbEntity.timeOfSample = updateTime ∧ ∃ tokenAddress, ∃ n : ℕ,
    dbEntity.tokenAddress = some tokenAddress ∧ dbEntity.balance = .fin n ∧
      (tokenAddress, dbEntity.makerAddress) ∈ table.map key

/-- A pass that asks, or has asked, about some makers and began to at some time. -/
def IsPassOf (newBlock updateTime : ℕ) (makerTokens : List MakerToken) : Phase → Prop
  | .checkingBalances newBlock' updateTime' balancesCallInput _ =>
    newBlock' = newBlock ∧ updateTime' = updateTime ∧ balancesCallInput = splitValues makerTokens
  | .saving newBlock' toSave' => newBlock' = newBlock ∧
    ∃ balances, toSave' = toSave (splitValues makerTokens) balances updateTime
  | _ => False

/-- A pass asks for balances, or saves them. -/
def InPass : Phase → Prop
  | .checkingBalances _ _ _ _ => True
  | .saving _ _ => True
  | _ => False

/-- What holds of a pass. -/
def PassOk (table : Table) (now : ℕ) : Phase → Prop
  | .checkingBalances _ updateTime balancesCallInput balances =>
    Asking table now updateTime balancesCallInput balances
  | .saving _ toSave => ∃ updateTime, Saving table now updateTime toSave
  | _ => True

/-- What is cached of the table is still in it. -/
structure CacheOk (table : Table) (cache : Cache Unit (List MakerToken)) : Prop where
  stored : ∀ cached, cache.resultCache "undefined" = some cached → Known table cached.result
  read : ∀ call waiting cached, cache.calls.call? call = some waiting →
    waiting.cached = some cached → Known table cached.result

/-- What holds of a worker. -/
structure WorkerOk (table : Table) (now : ℕ) (w : Worker) : Prop where
  pass : PassOk table now w.phase
  cache : CacheOk table w.makerTokenCache

theorem known_makerTokens (table : Table) : Known table (makerTokens table) := by
  intro makerToken hmem
  obtain ⟨row, hrow, rfl⟩ := List.mem_map.mp hmem
  exact List.mem_map_of_mem hrow

section Growth

variable {table table' : Table} {now now' : ℕ}

theorem Known.mono {makerTokens : List MakerToken} (h : Known table makerTokens)
    (hkeys : table.map key ⊆ table'.map key) : Known table' makerTokens :=
  fun makerToken hmem => hkeys (h makerToken hmem)

/-- Rows that are added without a sample, and time that passes, change nothing for a worker. -/
theorem WorkerOk.mono {w : Worker} (h : WorkerOk table now w) (hnow : now ≤ now')
    (hkeys : table.map key ⊆ table'.map key)
    (hsampled : ∀ time, SampledBy table time → SampledBy table' time) :
    WorkerOk table' now' w := by
  obtain ⟨hpass, hstored, hread⟩ := h
  refine ⟨?_, fun cached hc => (hstored cached hc).mono hkeys,
    fun call waiting cached hcall hc => (hread call waiting cached hcall hc).mono hkeys⟩
  cases hphase : w.phase with
  | checkingBalances newBlock updateTime balancesCallInput balances =>
    rw [hphase] at hpass
    obtain ⟨htime, hby, ⟨makerTokens, hinput, hknown⟩, hanswers⟩ := hpass
    exact ⟨htime.trans hnow, hsampled _ hby, ⟨makerTokens, hinput, hknown.mono hkeys⟩, hanswers⟩
  | saving newBlock toSave =>
    rw [hphase] at hpass
    obtain ⟨updateTime, htime, hby, hall⟩ := hpass
    refine ⟨updateTime, htime.trans hnow, hsampled _ hby, ?_⟩
    intro dbEntity hmem
    obtain ⟨ht, tokenAddress, n, htoken, hn, hkey⟩ := hall dbEntity hmem
    exact ⟨ht, tokenAddress, n, htoken, hn, hkeys hkey⟩
  | _ => trivial

end Growth

/-! ## The cached makers -/

section Cached

variable {table : Table} {cache : Cache Unit (List MakerToken)}

theorem CacheOk.getResult (h : CacheOk table cache) (now : ℕ) :
    CacheOk table ({ cache with now := now }.getResult MAKER_TOKEN_CACHE ()).1 ∧
      ∀ cached, ({ cache with now := now }.getResult MAKER_TOKEN_CACHE ()).2 = some cached →
        Known table cached.result := by
  unfold Cache.getResult
  split
  · refine ⟨⟨h.stored, ?_⟩, nofun⟩
    intro call waiting cached hcall hcached
    rcases InFlight.call?_of_start hcall with ⟨_, rfl⟩ | hbefore
    · exact h.stored cached hcached
    · exact h.read call waiting cached hbefore hcached
  · exact ⟨⟨h.stored, h.read⟩, h.stored⟩

theorem CacheOk.afterResult (h : CacheOk table cache) (now call : ℕ)
    (waiting : ResultCache.Waiting Unit (List MakerToken)) :
    CacheOk table ({ cache with now := now }.afterResult MAKER_TOKEN_CACHE call waiting
      (makerTokens table)).1 := by
  refine ⟨?_, ?_⟩
  · intro cached hcached
    have hstored : (Function.update cache.resultCache (MAKER_TOKEN_CACHE.key waiting.getArgs)
        (some ⟨now, makerTokens table⟩)) "undefined" = some cached := hcached
    rw [show MAKER_TOKEN_CACHE.key waiting.getArgs = "undefined" from rfl,
      Function.update_self] at hstored
    cases hstored
    exact known_makerTokens table
  · intro n waiting' cached hcall hcached
    exact h.read n waiting' cached (InFlight.call?_of_settle hcall).2 hcached

theorem CacheOk.afterError (h : CacheOk table cache) (now : ℕ) {call : ℕ}
    {waiting : ResultCache.Waiting Unit (List MakerToken)}
    (hcall : cache.calls.call? call = some waiting) :
    CacheOk table ({ cache with now := now }.afterError MAKER_TOKEN_CACHE call waiting ()).1 ∧
      ∀ cached,
        ({ cache with now := now }.afterError MAKER_TOKEN_CACHE call waiting ()).2 = .ok cached →
          Known table cached.result := by
  refine ⟨⟨h.stored, ?_⟩, ?_⟩
  · intro n waiting' cached hcall' hcached
    exact h.read n waiting' cached (InFlight.call?_of_settle hcall').2 hcached
  · intro cached hcached
    unfold Cache.afterError at hcached
    dsimp only at hcached
    split at hcached
    · cases hcached
    · rename_i c hread
      split at hcached
      · cases hcached
        exact h.read call waiting _ hcall hread
      · cases hcached

end Cached

/-! ## What each operation of a worker does -/

namespace Worker

variable {table : Table} {now newBlock updateTime : ℕ} {w : Worker}
  {balancesCallInput : BalancesCallInput}

/-- A worker between two passes: it waits for a block, or has exited. -/
def BetweenPasses (phase : Phase) : Prop :=
  phase = .requestingBlock ∨ ∃ message, phase = .exited message

theorem top_betweenPasses (w : Worker) : BetweenPasses w.top.phase := by
  unfold top
  split
  · exact .inr ⟨_, rfl⟩
  · split
    · exact .inr ⟨_, rfl⟩
    · exact .inl rfl

@[simp]
theorem makerTokenCache_top (w : Worker) : w.top.makerTokenCache = w.makerTokenCache := by
  unfold top
  split
  · rfl
  · split <;> rfl

@[simp]
theorem makerTokenCache_passFailed (w : Worker) :
    w.passFailed.makerTokenCache = w.makerTokenCache := makerTokenCache_top _

theorem passFailed_betweenPasses (w : Worker) : BetweenPasses w.passFailed.phase :=
  top_betweenPasses _

theorem passOk_of_betweenPasses {phase : Phase} (h : BetweenPasses phase) :
    PassOk table now phase := by
  rcases h with rfl | ⟨message, rfl⟩ <;> trivial

theorem not_inPass_of_betweenPasses {phase : Phase} (h : BetweenPasses phase) :
    ¬ InPass phase := by
  rcases h with rfl | ⟨message, rfl⟩ <;> exact not_false

theorem not_isInPass_of_betweenPasses {phase : Phase} (h : BetweenPasses phase)
    (sample : Sample) : ¬ IsInPass phase sample := by
  rcases h with rfl | ⟨message, rfl⟩ <;> exact not_false

@[simp]
theorem makerTokenCache_collect (w : Worker) (newBlock updateTime : ℕ)
    (balancesCallInput : BalancesCallInput) (balances : List (Option (List ℕ))) :
    (w.collect newBlock updateTime balancesCallInput balances).makerTokenCache =
      w.makerTokenCache := by
  unfold collect
  split <;> rfl

@[simp]
theorem makerTokenCache_checkBalances (w : Worker) (now newBlock : ℕ)
    (makerTokens : List MakerToken) :
    (w.checkBalances now newBlock makerTokens).makerTokenCache = w.makerTokenCache :=
  makerTokenCache_collect ..

/-- What the groups are answered with is, put together, an answer for each pair. -/
theorem answered_forall₂ {answers : List (List ℕ)}
    (h : List.Forall₂ (fun group answer => ∀ a, answer = some a → group.length = a.length)
      (pairGroups balancesCallInput) (answers.map some)) :
    List.Forall₂ (fun pair n => ∃ (i : ℕ) (group : List (String × String)) (answer : List ℕ),
      (pairGroups balancesCallInput)[i]? = some group ∧
        (answers.map some)[i]? = some (some answer) ∧ (pair, n) ∈ group.zip answer)
      (pairs balancesCallInput) answers.flatten := by
  apply forall₂_flatten_of_chunks checks_pos
  rw [List.forall₂_map_right_iff] at h
  obtain ⟨hlen, hget⟩ := List.forall₂_iff_get.mp h
  refine List.forall₂_iff_get.mpr ⟨hlen, ?_⟩
  intro i hgroup hanswer
  rw [List.forall₂_iff_zip]
  refine ⟨hget i hgroup hanswer _ rfl, ?_⟩
  intro pair n hmem
  exact ⟨i, _, _, List.getElem?_eq_getElem hgroup, by simp [List.getElem?_eq_getElem hanswer],
    hmem⟩

theorem map_some_of_mapM_id {balances : List (Option (List ℕ))} {answers : List (List ℕ)}
    (h : balances.mapM id = some answers) : balances = answers.map some := by
  induction balances generalizing answers with
  | nil =>
    cases h
    rfl
  | cons first rest ih =>
    rw [List.mapM_cons] at h
    obtain ⟨a, ha, h⟩ := Option.bind_eq_some_iff.mp h
    obtain ⟨as, has, h⟩ := Option.bind_eq_some_iff.mp h
    cases h
    rw [List.map_cons, ← ih has, ← show first = some a from ha]

/-- Answers do not change what a pass is about. -/
theorem isPassOf_collect (w : Worker) (newBlock updateTime : ℕ) (makerTokens : List MakerToken)
    (balances : List (Option (List ℕ))) :
    IsPassOf newBlock updateTime makerTokens
      (w.collect newBlock updateTime (splitValues makerTokens) balances).phase := by
  unfold collect
  split
  · exact ⟨rfl, _, rfl⟩
  · exact ⟨rfl, rfl, rfl⟩

/-- When every call is answered the pass saves what it was answered, and until then it goes on
waiting. -/
theorem collect_spec {balances : List (Option (List ℕ))}
    (h : Asking table now updateTime balancesCallInput balances) (w : Worker) (newBlock : ℕ) :
    PassOk table now (w.collect newBlock updateTime balancesCallInput balances).phase ∧
      ∀ sample, IsInPass (w.collect newBlock updateTime balancesCallInput balances).phase sample →
        IsInPass (.checkingBalances newBlock updateTime balancesCallInput balances) sample := by
  unfold collect
  split
  · rename_i answers hanswers
    obtain ⟨htime, hby, ⟨makerTokens, rfl, hknown⟩, hfit⟩ := h
    have hlen := length_splitValues makerTokens
    rw [map_some_of_mapM_id hanswers] at hfit
    have hall := answered_forall₂ hfit
    have hsave := toSave_eq hlen hall.length_eq updateTime
    dsimp only
    rw [hsave]
    refine ⟨⟨updateTime, htime, hby, ?_⟩, ?_⟩
    · intro dbEntity hmem
      obtain ⟨⟨pair, n⟩, hpair, rfl⟩ := List.mem_map.mp hmem
      refine ⟨rfl, pair.2, n, rfl, rfl, ?_⟩
      have hin := (List.of_mem_zip hpair).1
      rw [pairs_splitValues] at hin
      obtain ⟨makerToken, hmakerToken, rfl⟩ := List.mem_map.mp hin
      exact hknown makerToken hmakerToken
    · intro sample hmem
      obtain ⟨⟨pair, n⟩, hpair, heq⟩ := List.mem_map.mp hmem
      obtain ⟨hmaker, htoken, hbalance, htime⟩ := SampledBalance.mk.inj heq
      have hn : n = sample.balance := Nat.cast_injective (BigNumber.fin.inj hbalance)
      have hsample : pair = (sample.makerAddress, sample.tokenAddress) :=
        Prod.ext hmaker (Option.some.inj htoken)
      obtain ⟨i, group, answer, hgroup, hanswer, hzip⟩ := List.forall₂_zip hall hpair
      rw [hn, hsample] at hzip
      refine ⟨htime.symm, i, group, answer, hgroup, ?_, hzip⟩
      rw [map_some_of_mapM_id hanswers]
      exact hanswer
  · exact ⟨h, fun _ => id⟩

theorem isPassOf_checkBalances (w : Worker) (now newBlock : ℕ) (makerTokens : List MakerToken) :
    IsPassOf newBlock now makerTokens (w.checkBalances now newBlock makerTokens).phase :=
  isPassOf_collect w newBlock now makerTokens _

/-- A pass begins without an answer. -/
theorem checkBalances_spec {makerTokens : List MakerToken} (hnow : SampledBy table now)
    (hknown : Known table makerTokens) (w : Worker) (newBlock : ℕ) :
    PassOk table now (w.checkBalances now newBlock makerTokens).phase ∧
      ∀ sample, ¬ IsInPass (w.checkBalances now newBlock makerTokens).phase sample := by
  have hlen : (pairGroups (splitValues makerTokens)).length =
      (balanceCalls (splitValues makerTokens)).length := by
    rw [balanceCalls_eq (length_splitValues makerTokens), List.length_map]
  have hasking : Asking table now now (splitValues makerTokens)
      (List.replicate (balanceCalls (splitValues makerTokens)).length none) := by
    refine ⟨le_rfl, hnow, ⟨makerTokens, rfl, hknown⟩, ?_⟩
    refine List.forall₂_iff_get.mpr ⟨by rw [hlen, List.length_replicate], ?_⟩
    intro i _ _ a ha
    simp at ha
  obtain ⟨hpass, hheld⟩ := collect_spec hasking w newBlock
  refine ⟨hpass, ?_⟩
  intro sample hsample
  obtain ⟨_, i, group, answer, _, hanswer, _⟩ := hheld sample hsample
  simp [List.getElem?_replicate] at hanswer

/-! ### The operations -/

/-- Nothing is sampled before the calls of a pass are answered. -/
theorem cacheRfqBalances_spec (h : WorkerOk table now w) (hnow : SampledBy table now)
    (newBlock : ℕ) :
    WorkerOk table now (w.cacheRfqBalances now newBlock) ∧
      ∀ sample, ¬ IsInPass (w.cacheRfqBalances now newBlock).phase sample := by
  obtain ⟨hcache, hcached⟩ := h.cache.getResult now
  unfold cacheRfqBalances
  split
  rename_i makerTokenCache cached hresult
  rw [hresult] at hcache hcached
  cases cached with
  | none => exact ⟨⟨trivial, hcache⟩, fun _ => not_false⟩
  | some cached =>
    obtain ⟨hpass, hheld⟩ := checkBalances_spec hnow (hcached cached rfl)
      { w with makerTokenCache } newBlock
    refine ⟨⟨hpass, ?_⟩, hheld⟩
    dsimp only
    rw [makerTokenCache_checkBalances]
    exact hcache

theorem onBlockNumber_spec (h : WorkerOk table now w) (hnow : SampledBy table now)
    (newBlock : Option ℕ) :
    WorkerOk table now (w.onBlockNumber now newBlock) ∧
      ∀ sample, IsInPass (w.onBlockNumber now newBlock).phase sample →
        IsInPass w.phase sample := by
  unfold onBlockNumber
  split
  · refine ⟨⟨passOk_of_betweenPasses (top_betweenPasses _), ?_⟩, fun sample hsample => ?_⟩
    · rw [makerTokenCache_top]
      exact h.cache
    · exact absurd hsample (not_isInPass_of_betweenPasses (top_betweenPasses _) sample)
  · split
    · obtain ⟨hok, hheld⟩ := cacheRfqBalances_spec h hnow _
      exact ⟨hok, fun sample hsample => absurd hsample (hheld sample)⟩
    · exact ⟨⟨trivial, h.cache⟩, fun _ => False.elim⟩
  · exact ⟨h, fun _ => id⟩

theorem onMakerTokens_spec (h : WorkerOk table now w) (hnow : SampledBy table now) (ok : Bool) :
    WorkerOk table now (w.onMakerTokens now table ok) ∧
      ∀ sample, IsInPass (w.onMakerTokens now table ok).phase sample →
        IsInPass w.phase sample := by
  unfold onMakerTokens
  split
  · rename_i newBlock call hphase
    split
    · exact ⟨h, fun _ => id⟩
    · rename_i waiting hcall
      dsimp only
      split
      · obtain ⟨hpass, hheld⟩ := checkBalances_spec hnow (known_makerTokens table)
          { w with
            makerTokenCache := ({ w.makerTokenCache with now := now }.afterResult
              MAKER_TOKEN_CACHE call waiting (makerTokens table)).1 } newBlock
        refine ⟨⟨hpass, ?_⟩, fun sample hsample => absurd hsample (hheld sample)⟩
        rw [makerTokenCache_checkBalances]
        exact h.cache.afterResult now call waiting
      · obtain ⟨hcache, hcached⟩ := h.cache.afterError now hcall
        split
        · rename_i makerTokenCache cached hresult
          rw [hresult] at hcache hcached
          obtain ⟨hpass, hheld⟩ := checkBalances_spec hnow (hcached cached rfl)
            { w with makerTokenCache } newBlock
          refine ⟨⟨hpass, ?_⟩, fun sample hsample => absurd hsample (hheld sample)⟩
          rw [makerTokenCache_checkBalances]
          exact hcache
        · rename_i makerTokenCache _ hresult
          rw [hresult] at hcache
          refine ⟨⟨passOk_of_betweenPasses (passFailed_betweenPasses _), ?_⟩,
            fun sample hsample => ?_⟩
          · rw [makerTokenCache_passFailed]
            exact hcache
          · exact absurd hsample
              (not_isInPass_of_betweenPasses (passFailed_betweenPasses _) sample)
  · exact ⟨h, fun _ => id⟩

/-- A worker whose pass has failed. -/
theorem passFailed_spec (h : WorkerOk table now w) :
    WorkerOk table now w.passFailed ∧ ∀ sample, ¬ IsInPass w.passFailed.phase sample := by
  refine ⟨⟨passOk_of_betweenPasses (passFailed_betweenPasses _), ?_⟩,
    not_isInPass_of_betweenPasses (passFailed_betweenPasses _)⟩
  rw [makerTokenCache_passFailed]
  exact h.cache

/-- What a pass is answered is what the chain has when it is asked. -/
theorem onBalances_spec {Address : Type} [DecidableEq Address]
    {encodeAddress : String → Except JsError Address} (h : WorkerOk table now w)
    (chain : ChainState Address) (i : ℕ) (ok : Bool) :
    WorkerOk table now (w.onBalances encodeAddress chain i ok) ∧
      ∀ sample, IsInPass (w.onBalances encodeAddress chain i ok).phase sample →
        IsInPass w.phase sample ∨ (sample.timeOfSample ≤ now ∧
          sampleOf encodeAddress chain sample.makerAddress sample.tokenAddress =
            .ok sample.balance) := by
  unfold onBalances
  split
  · rename_i newBlock updateTime balancesCallInput balances hphase
    have hpass := h.pass
    rw [hphase] at hpass
    obtain ⟨htime, hby, ⟨makerTokens, hinput, hknown⟩, hfit⟩ := hpass
    split
    · rename_i call hcall hwaits
      split
      · rename_i answer hanswer
        -- the call is the one for the group at its place
        rw [hinput, balanceCalls_eq (length_splitValues makerTokens), List.getElem?_map,
          Option.map_eq_some_iff] at hcall
        obtain ⟨group, hgroup, rfl⟩ := hcall
        rw [← hinput] at hgroup
        have hseen := callAsync_forall₂ hanswer
        have hasking : Asking table now updateTime balancesCallInput
            (balances.set i (some answer)) := by
          refine ⟨htime, hby, ⟨makerTokens, hinput, hknown⟩, ?_⟩
          obtain ⟨hlen, hget⟩ := List.forall₂_iff_get.mp hfit
          refine List.forall₂_iff_get.mpr ⟨by rw [hlen, List.length_set], ?_⟩
          intro j hj hj' a ha
          rw [List.get_eq_getElem, List.getElem_set] at ha
          split at ha
          · rename_i heq
            subst heq
            cases ha
            rw [List.getElem?_eq_getElem hj] at hgroup
            rw [List.get_eq_getElem, Option.some.inj hgroup]
            exact hseen.length_eq
          · exact hget j hj (by rwa [List.length_set] at hj') a ha
        obtain ⟨hok, hheld⟩ := collect_spec hasking w newBlock
        refine ⟨⟨hok, ?_⟩, ?_⟩
        · rw [makerTokenCache_collect]
          exact h.cache
        · intro sample hsample
          obtain ⟨hsampleTime, j, group', answer', hgroup', hanswer', hmem⟩ := hheld sample hsample
          rw [List.getElem?_set] at hanswer'
          split at hanswer'
          · rename_i heq
            subst heq
            split at hanswer'
            · cases hanswer'
              rw [hgroup] at hgroup'
              cases hgroup'
              exact .inr ⟨hsampleTime ▸ htime, List.forall₂_zip hseen hmem⟩
            · cases hanswer'
          · left
            rw [hphase]
            exact ⟨hsampleTime, j, group', answer', hgroup', hanswer', hmem⟩
      · obtain ⟨hok, hheld⟩ := passFailed_spec h
        exact ⟨hok, fun sample hsample => absurd hsample (hheld sample)⟩
    · exact ⟨h, fun _ => .inl⟩
  · exact ⟨h, fun _ => .inl⟩

theorem onDelayed_spec (h : WorkerOk table now w) :
    WorkerOk table now (w.onDelayed now) ∧
      ∀ sample, IsInPass (w.onDelayed now).phase sample → IsInPass w.phase sample := by
  unfold onDelayed
  split
  · split
    · refine ⟨⟨passOk_of_betweenPasses (top_betweenPasses _), ?_⟩, fun sample hsample => ?_⟩
      · rw [makerTokenCache_top]
        exact h.cache
      · exact absurd hsample (not_isInPass_of_betweenPasses (top_betweenPasses _) sample)
    · exact ⟨h, fun _ => id⟩
  · exact ⟨h, fun _ => id⟩

/-- The database is left as it is, or rows of the pass get what the pass has sampled. -/
theorem onSaved_spec (h : WorkerOk table now w) (ok : Bool) :
    ∃ entities, List.Forall₂ (Rewritten entities) table (w.onSaved now table ok).2 ∧
      WorkerOk (w.onSaved now table ok).2 now (w.onSaved now table ok).1 ∧
      (∀ sample, IsInPass (w.onSaved now table ok).1.phase sample → IsInPass w.phase sample) ∧
      (entities = [] ∨ ∃ newBlock updateTime, w.phase = .saving newBlock entities ∧
        Saving table now updateTime entities) := by
  have hsame : List.Forall₂ (Rewritten []) table table :=
    List.forall₂_same.mpr fun row _ => .refl row
  unfold onSaved
  split
  · rename_i newBlock toSave hphase
    have hpass := h.pass
    rw [hphase] at hpass
    obtain ⟨updateTime, hsaving⟩ := hpass
    split
    · rename_i table' hsave
      have hrewritten := save_spec hsave
      refine ⟨toSave, hrewritten, ⟨trivial, ?_⟩, fun _ => False.elim,
        .inr ⟨newBlock, updateTime, hphase, hsaving⟩⟩
      have hkeys : table.map key ⊆ table'.map key := by
        rw [map_key_of_rewritten hrewritten]
        exact List.Subset.refl _
      exact ⟨fun cached hc => (h.cache.stored cached hc).mono hkeys,
        fun call waiting cached hcall hc =>
          (h.cache.read call waiting cached hcall hc).mono hkeys⟩
    · obtain ⟨hok, hheld⟩ := passFailed_spec h
      exact ⟨[], hsame, hok, fun sample hsample => absurd hsample (hheld sample), .inl rfl⟩
  · exact ⟨[], hsame, h, fun _ => id, .inl rfl⟩

theorem initial_spec (table : Table) (now : ℕ) :
    WorkerOk table now .initial ∧ ∀ sample, ¬ IsInPass initial.phase sample := by
  refine ⟨⟨passOk_of_betweenPasses (top_betweenPasses _), ?_⟩,
    not_isInPass_of_betweenPasses (top_betweenPasses _)⟩
  rw [initial, makerTokenCache_top]
  refine ⟨nofun, fun call waiting cached hcall => ?_⟩
  rw [InFlight.call?_empty] at hcall
  cases hcall

end Worker

end ZeroExApi.MakerBalanceCacheRunner
