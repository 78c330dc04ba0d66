/-
# ZeroExApi.RfqMakerBalances — validators, the worker and the chain together

Web processes validate firm quotes by rows of a table (`postgres_rfqt_firm_quote_validator.ts`), a
worker fills the table from the chain (`rfq_maker_balance_cache_runner.ts`), and in between time
passes and blocks are mined.  A validation reads, computes and inserts at three moments, a pass of
the worker asks at many; anything may happen between any two of them, and the worker may be killed
and started again at any moment.

Whatever the order, a row's balance was the maker's on the chain at a moment that is no older than
the row says (`sample_wasOnChain`).  So the part of a quote that a validator lets through was backed
by what the maker had within the last two minutes, unless the maker is new (`answer_backed`).  The
table is what the validator assumes it to be in every state (`exists_makerBalanceCache`), and no
process undoes what another has written (`rows_kept`).
-/

import ZeroExApi.MakerBalanceCacheRunner
import ZeroExApi.Lib.Recorded

namespace ZeroExApi.RfqMakerBalances

open ZeroExApi.Lib ZeroExApi.Lib.Chunks ZeroExApi.Lib.Transition
open ZeroExApi.BalanceChecker ZeroExApi.MakerBalanceCacheRunner ZeroExApi.FirmQuoteValidator
open ZeroExApi.ResultCache (CachedResult)

/-! ## Validations -/

/-- The token of a batch, if its quotes agree on it. -/
def uniqueMakerToken (quotes : List RfqOrderFields) : Option String :=
  match (JsSet.ofList (quotes.map fun quote => quote.makerToken.toLower)).elements with
  | [makerToken] => some makerToken
  | _ => none

/-- The makers of a batch. -/
def makerAddresses (quotes : List RfqOrderFields) : List String :=
  (JsSet.ofList (quotes.map fun quote => quote.maker.toLower)).elements

/-- `getRfqtTakerFillableAmountsAsync` from the answer of its query to its insertion. -/
def computeTakerFillableAmounts (cacheExpiryThresholdMs : ℤ) (makerToken : String)
    (cacheResults : Table) (nowUnix : ℤ) (quotes : List RfqOrderFields) :
    Except JsError (List BigNumber × List NewMaker) := do
  let makerLookup := JsMap.empty.setAll (cacheResults.map fun result =>
    (result.makerAddress, calculateMakerBalanceFromResult cacheExpiryThresholdMs result nowUnix))
  let (takerFillableAmounts, makerAddressesToAddToCache) ←
    calculateTakerFillableAmountsFromQuotes makerLookup quotes .empty
  .ok
    (takerFillableAmounts,
      makerAddressesToAddToCache.elements.map fun makerAddress =>
        ⟨makerAddress.toLower, makerToken.toLower⟩)

/-- Reading and computing at one moment is what the validator does as a whole. -/
theorem getRfqtTakerFillableAmounts_eq (cacheExpiryThresholdMs : ℤ) (cache : MakerBalanceCache)
    (nowUnix : ℤ) (quotes : List RfqOrderFields) :
    getRfqtTakerFillableAmounts cacheExpiryThresholdMs cache nowUnix quotes =
      match uniqueMakerToken quotes with
      | some makerToken =>
        computeTakerFillableAmounts cacheExpiryThresholdMs makerToken
          (findRows cache.rows makerToken (makerAddresses quotes)) nowUnix quotes
      | none => .ok (quotes.map fun _ => ZERO, []) := by
  unfold getRfqtTakerFillableAmounts uniqueMakerToken
  dsimp only
  generalize helements :
    (JsSet.ofList (quotes.map fun quote => quote.makerToken.toLower)).elements = makerTokens
  rcases makerTokens with _ | ⟨makerToken, _ | ⟨other, rest⟩⟩
  · rfl
  · rfl
  · rfl

/-- The quotes of a batch with a token have that token. -/
theorem eq_of_uniqueMakerToken {quotes : List RfqOrderFields} {makerToken : String}
    (h : uniqueMakerToken quotes = some makerToken) {quote : RfqOrderFields}
    (hquote : quote ∈ quotes) : quote.makerToken.toLower = makerToken := by
  unfold uniqueMakerToken at h
  split at h
  · rename_i makerToken' hunique
    cases h
    rw [← List.mem_singleton, ← hunique, JsSet.mem_ofList]
    exact List.mem_map_of_mem hquote
  · cases h

/-- A validation that waits: for its own turn, or for its insertion. -/
inductive Validation where
  | computing (quotes : List RfqOrderFields) (makerToken : String) (cacheResults : Table)
  | inserting (quotes : List RfqOrderFields) (takerFillableAmounts : List BigNumber)
      (newMakers : List NewMaker)

/-! ## The system -/

/-- The clock, the chain, the table, the worker, and the validations of all web processes. -/
structure State (Address : Type) where
  now : ℕ
  chain : ChainState Address
  table : Table
  worker : Worker
  validations : InFlight Validation

/-- What can happen next. -/
inductive Event (Address : Type) where
  | clock (ms : ℕ)
  /-- Blocks are mined, and transactions change what accounts have. -/
  | chain (chain : ChainState Address)
  /-- The query of a validation is answered. -/
  | validate (quotes : List RfqOrderFields)
  | compute (validation : ℕ)
  /-- The insertion of a validation is executed, or fails. -/
  | insert (validation : ℕ) (ok : Bool)
  | blockNumber (newBlock : Option ℕ)
  | makerTokens (ok : Bool)
  | balances (call : ℕ) (ok : Bool)
  | saved (ok : Bool)
  | delayed
  /-- The worker is killed and started again. -/
  | restart

/-- An empty table, and processes that have just been started. -/
def initial {Address : Type} (now : ℕ) (chain : ChainState Address) : State Address where
  now := now
  chain := chain
  table := []
  worker := .initial
  validations := .empty

section Step

variable {Address : Type} [DecidableEq Address] (encodeAddress : String → Except JsError Address)

/-- One step. -/
def step (s : State Address) : Event Address → State Address
  | .clock ms => { s with now := s.now + ms }
  | .chain chain => { s with chain }
  | .validate quotes =>
    match uniqueMakerToken quotes with
    | some makerToken =>
      { s with
        validations := s.validations.start (.computing quotes makerToken
          (findRows s.table makerToken (makerAddresses quotes))) }
    | none => s
  | .compute n =>
    match s.validations.call? n with
    | some (.computing quotes makerToken cacheResults) =>
      match computeTakerFillableAmounts RFQ_FIRM_QUOTE_CACHE_EXPIRY makerToken cacheResults s.now
          quotes with
      | .ok (_, []) => { s with validations := s.validations.settle n }
      | .ok (takerFillableAmounts, newMaker :: newMakers) =>
        { s with
          validations := s.validations.put n
            (some (.inserting quotes takerFillableAmounts (newMaker :: newMakers))) }
      | .error _ => { s with validations := s.validations.settle n }
    | _ => s
  | .insert n ok =>
    match s.validations.call? n with
    | some (.inserting _ _ newMakers) =>
      { s with
        table := if ok then insertNewMakers s.now s.table newMakers else s.table
        validations := s.validations.settle n }
    | _ => s
  | .blockNumber newBlock => { s with worker := s.worker.onBlockNumber s.now newBlock }
  | .makerTokens ok => { s with worker := s.worker.onMakerTokens s.now s.table ok }
  | .balances call ok => { s with worker := s.worker.onBalances encodeAddress s.chain call ok }
  | .saved ok =>
    let (worker, table) := s.worker.onSaved s.now s.table ok
    { s with worker, table }
  | .delayed => { s with worker := s.worker.onDelayed s.now }
  | .restart => { s with worker := .initial }

/-- The amounts that a validation resolves to at an event, with its quotes. -/
def answer (s : State Address) : Event Address → Option (List RfqOrderFields × List BigNumber)
  | .validate quotes =>
    match uniqueMakerToken quotes with
    | some _ => none
    | none => some (quotes, quotes.map fun _ => ZERO)
  | .compute n =>
    match s.validations.call? n with
    | some (.computing quotes makerToken cacheResults) =>
      match computeTakerFillableAmounts RFQ_FIRM_QUOTE_CACHE_EXPIRY makerToken cacheResults s.now
          quotes with
      | .ok (takerFillableAmounts, []) => some (quotes, takerFillableAmounts)
      | _ => none
    | _ => none
  | .insert n ok =>
    match s.validations.call? n with
    | some (.inserting quotes takerFillableAmounts _) =>
      if ok then some (quotes, takerFillableAmounts) else none
    | _ => none
  | _ => none

/-! A validation has no effect on the worker. -/

@[simp]
theorem worker_step_validate (s : State Address) (quotes : List RfqOrderFields) :
    (step encodeAddress s (.validate quotes)).worker = s.worker := by
  simp only [step]
  split <;> rfl

@[simp]
theorem worker_step_compute (s : State Address) (n : ℕ) :
    (step encodeAddress s (.compute n)).worker = s.worker := by
  simp only [step]
  split
  · split <;> rfl
  · rfl

@[simp]
theorem worker_step_insert (s : State Address) (n : ℕ) (ok : Bool) :
    (step encodeAddress s (.insert n ok)).worker = s.worker := by
  simp only [step]
  split <;> rfl

end Step

/-! ## The table -/

/-- What holds of the table: its key is one, addresses are in lower case, and a row is either new or
has a balance and the time it was sampled. -/
structure TableOk (table : Table) (now : ℕ) : Prop where
  primaryKey : (table.map key).Nodup
  lowerCase : ∀ row ∈ table, row.tokenAddress.toLower = row.tokenAddress ∧
    row.makerAddress.toLower = row.makerAddress
  sampled : ∀ row ∈ table, (row.balance = none ∧ row.timeOfSample = none) ∨
    ∃ n t : ℕ, row.balance = some (.fin n) ∧ row.timeOfSample = some (t : ℤ) ∧ t ≤ now

section Table

variable {table table' : Table} {now now' updateTime : ℕ} {entities : List SampledBalance}

theorem TableOk.sampledBy (h : TableOk table now) : SampledBy table now := by
  intro row hrow t ht
  rcases h.sampled row hrow with ⟨_, hnone⟩ | ⟨n, t', _, htime, hle⟩
  · rw [hnone] at ht
    cases ht
  · rw [htime] at ht
    cases ht
    exact_mod_cast hle

theorem TableOk.later (h : TableOk table now) (hnow : now ≤ now') : TableOk table now' := by
  refine ⟨h.primaryKey, h.lowerCase, fun row hrow => ?_⟩
  rcases h.sampled row hrow with hnew | ⟨n, t, hn, ht, hle⟩
  · exact .inl hnew
  · exact .inr ⟨n, t, hn, ht, hle.trans hnow⟩

/-- The table behind an insertion of makers in lower case. -/
theorem TableOk.insertNewMakers (h : TableOk table now) {newMakers : List NewMaker}
    (hlower : ∀ m ∈ newMakers, m.tokenAddress.toLower = m.tokenAddress ∧
      m.makerAddress.toLower = m.makerAddress) :
    TableOk (insertNewMakers now table newMakers) now := by
  obtain ⟨added, hadded, hnew, hnodup, _⟩ := insertNewMakers_spec now table newMakers
  rw [hadded]
  refine ⟨hnodup h.primaryKey, fun row hrow => ?_, fun row hrow => ?_⟩
  · rcases List.mem_append.mp hrow with hold | hrow
    · exact h.lowerCase row hold
    · exact hlower _ (hnew row hrow).2.2.2
  · rcases List.mem_append.mp hrow with hold | hrow
    · exact h.sampled row hold
    · exact .inl ⟨(hnew row hrow).2.1, (hnew row hrow).2.2.1⟩

theorem transformed_natCast (n : ℕ) : transformed (.fin n) = .fin n :=
  BigNumber.ofString_toString_natCast n

/-- The table behind what a pass saves. -/
theorem TableOk.rewritten (h : TableOk table now)
    (hrewritten : List.Forall₂ (Rewritten entities) table table')
    (hentities : ∀ dbEntity ∈ entities, dbEntity.timeOfSample ≤ now ∧
      ∃ n : ℕ, dbEntity.balance = .fin n) : TableOk table' now := by
  refine ⟨?_, fun row' hrow' => ?_, fun row' hrow' => ?_⟩
  · rw [map_key_of_rewritten hrewritten]
    exact h.primaryKey
  · obtain ⟨row, hrow, hrow'⟩ := Fallible.exists_of_mem_right hrewritten hrow'
    obtain ⟨htoken, hmaker⟩ := Prod.mk.inj hrow'.key_eq
    rw [htoken, hmaker]
    exact h.lowerCase row hrow
  · obtain ⟨row, hrow, hrow'⟩ := Fallible.exists_of_mem_right hrewritten hrow'
    rcases hrow'.sample with rfl | ⟨dbEntity, hmem, _, hbalance, htime⟩
    · exact h.sampled _ hrow
    · obtain ⟨hle, n, hn⟩ := hentities dbEntity hmem
      rw [hn, transformed_natCast] at hbalance
      exact .inr ⟨n, dbEntity.timeOfSample, hbalance, htime, hle⟩

end Table

/-! ## The invariant -/

/-- What holds in every state. -/
structure Invariant {Address : Type} (s : State Address) : Prop where
  table : TableOk s.table s.now
  inserting : ∀ n quotes takerFillableAmounts newMakers,
    s.validations.call? n = some (.inserting quotes takerFillableAmounts newMakers) →
      ∀ m ∈ newMakers, m.tokenAddress.toLower = m.tokenAddress ∧
        m.makerAddress.toLower = m.makerAddress
  worker : WorkerOk s.table s.now s.worker

/-- Makers are inserted in lower case. -/
theorem newMakers_lowerCase {cacheExpiryThresholdMs : ℤ} {makerToken : String}
    {cacheResults : Table} {nowUnix : ℤ} {quotes : List RfqOrderFields}
    {takerFillableAmounts : List BigNumber} {newMakers : List NewMaker}
    (h : computeTakerFillableAmounts cacheExpiryThresholdMs makerToken cacheResults nowUnix quotes =
      .ok (takerFillableAmounts, newMakers)) :
    ∀ m ∈ newMakers, m.tokenAddress.toLower = m.tokenAddress ∧
      m.makerAddress.toLower = m.makerAddress := by
  obtain ⟨⟨amounts, added⟩, _, h⟩ := Fallible.bind_eq_ok.mp h
  cases h
  intro m hm
  obtain ⟨makerAddress, _, rfl⟩ := List.mem_map.mp hm
  exact ⟨JsString.toLower_toLower _, JsString.toLower_toLower _⟩

section Run

variable {Address : Type} [DecidableEq Address] {encodeAddress : String → Except JsError Address}

omit [DecidableEq Address] in
theorem invariant_initial (now : ℕ) (chain : ChainState Address) : Invariant
    (initial now chain) := by
  refine ⟨⟨List.nodup_nil, nofun, nofun⟩, ?_, (Worker.initial_spec [] now).1⟩
  intro n quotes amounts newMakers hcall
  rw [initial, InFlight.call?_empty] at hcall
  cases hcall

/-- The invariant under one step. -/
theorem Invariant.step {s : State Address} (hs : Invariant s) (e : Event Address) :
    Invariant (step encodeAddress s e) := by
  obtain ⟨htable, hinserting, hworker⟩ := hs
  have hby := htable.sampledBy
  -- a validation that has settled inserts nothing any more
  have hsettle : ∀ m n quotes amounts newMakers,
      (s.validations.settle m).call? n = some (.inserting quotes amounts newMakers) →
        ∀ x ∈ newMakers, x.tokenAddress.toLower = x.tokenAddress ∧
          x.makerAddress.toLower = x.makerAddress :=
    fun m n quotes amounts newMakers hcall =>
      hinserting n quotes amounts newMakers (InFlight.call?_of_settle hcall).2
  cases e with
  | clock ms =>
    have hlater : s.now ≤ s.now + ms := Nat.le_add_right _ _
    exact ⟨htable.later hlater, hinserting,
      hworker.mono hlater (List.Subset.refl _) fun _ => id⟩
  | chain chain => exact ⟨htable, hinserting, hworker⟩
  | validate quotes =>
    simp only [RfqMakerBalances.step]
    split
    · refine ⟨htable, ?_, hworker⟩
      intro n quotes' amounts newMakers hcall
      rcases InFlight.call?_of_start hcall with ⟨_, hnew⟩ | hbefore
      · cases hnew
      · exact hinserting n quotes' amounts newMakers hbefore
    · exact ⟨htable, hinserting, hworker⟩
  | compute n =>
    simp only [RfqMakerBalances.step]
    split
    · split
      · exact ⟨htable, hsettle n, hworker⟩
      · rename_i amounts newMaker newMakers hcompute
        refine ⟨htable, ?_, hworker⟩
        intro m quotes' amounts' newMakers' hcall
        rcases InFlight.call?_of_put hcall with ⟨_, hnew⟩ | hbefore
        · cases hnew
          exact newMakers_lowerCase hcompute
        · exact hinserting m quotes' amounts' newMakers' hbefore
      · exact ⟨htable, hsettle n, hworker⟩
    · exact ⟨htable, hinserting, hworker⟩
  | insert n ok =>
    simp only [RfqMakerBalances.step]
    split
    · rename_i quotes amounts newMakers hcall
      cases ok with
      | false => exact ⟨htable, hsettle n, hworker⟩
      | true =>
        obtain ⟨added, hadded, hnew, _, _⟩ := insertNewMakers_spec s.now s.table newMakers
        refine ⟨htable.insertNewMakers (hinserting n quotes amounts newMakers hcall), hsettle n, ?_⟩
        refine hworker.mono le_rfl ?_ ?_
        · show s.table.map key ⊆ (insertNewMakers s.now s.table newMakers).map key
          rw [hadded, List.map_append]
          exact List.subset_append_left _ _
        · show ∀ time, SampledBy s.table time →
            SampledBy (insertNewMakers s.now s.table newMakers) time
          rw [hadded]
          intro time htime row hrow t ht
          rcases List.mem_append.mp hrow with hold | hrow
          · exact htime row hold t ht
          · rw [(hnew row hrow).2.2.1] at ht
            cases ht
    · exact ⟨htable, hinserting, hworker⟩
  | blockNumber newBlock =>
    exact ⟨htable, hinserting, (Worker.onBlockNumber_spec hworker hby newBlock).1⟩
  | makerTokens ok => exact ⟨htable, hinserting, (Worker.onMakerTokens_spec hworker hby ok).1⟩
  | balances call ok =>
    exact ⟨htable, hinserting, (Worker.onBalances_spec hworker s.chain call ok).1⟩
  | saved ok =>
    obtain ⟨entities, hrewritten, hok, _, hpass⟩ := Worker.onSaved_spec hworker ok
    refine ⟨htable.rewritten hrewritten ?_, hinserting, hok⟩
    rcases hpass with rfl | ⟨newBlock, updateTime, _, hsaving⟩
    · exact nofun
    · intro dbEntity hmem
      obtain ⟨htime, _, n, _, hn, _⟩ := hsaving.sampled dbEntity hmem
      exact ⟨htime ▸ hsaving.updateTime_le, n, hn⟩
  | delayed => exact ⟨htable, hinserting, (Worker.onDelayed_spec hworker).1⟩
  | restart => exact ⟨htable, hinserting, (Worker.initial_spec _ _).1⟩

theorem invariant_run (now : ℕ) (chain : ChainState Address) (es : List (Event Address)) :
    Invariant (run (step encodeAddress) (initial now chain) es) :=
  run_invariant (fun _ e hs => hs.step e) (invariant_initial now chain) es

/-! ## What samples say -/

/-- The system has a sample on record: in the table, in what a validation has read, or in a pass. -/
def Held (s : State Address) (sample : Sample) : Prop :=
  IsInRows s.table sample ∨
    (∃ n quotes makerToken cacheResults,
      s.validations.call? n = some (.computing quotes makerToken cacheResults) ∧
        IsInRows cacheResults sample) ∨
    IsInPass s.worker.phase sample

/-- A sample is true: the chain has the balance, and the clock says no less than the sample. -/
def Seen (encodeAddress : String → Except JsError Address) (s : State Address) (sample : Sample) :
    Prop :=
  sample.timeOfSample ≤ s.now ∧
    sampleOf encodeAddress s.chain sample.makerAddress sample.tokenAddress = .ok sample.balance

/-- What a pass saves is in its rows afterwards, and nothing else is new. -/
theorem isInRows_of_rewritten {table table' : Table} {entities : List SampledBalance}
    {now updateTime newBlock : ℕ} {sample : Sample}
    (hrewritten : List.Forall₂ (Rewritten entities) table table')
    (hsaving : Saving table now updateTime entities) (h : IsInRows table' sample) :
    IsInRows table sample ∨ IsInPass (.saving newBlock entities) sample := by
  obtain ⟨row', hrow', hmaker, htoken, hbalance, htime⟩ := h
  obtain ⟨row, hrow, hrow'⟩ := Fallible.exists_of_mem_right hrewritten hrow'
  rcases hrow'.sample with rfl | ⟨dbEntity, hmem, hof, hbalance', htime'⟩
  · exact .inl ⟨_, hrow, hmaker, htoken, hbalance, htime⟩
  · obtain ⟨_, tokenAddress, n, hentityToken, hn, _⟩ := hsaving.sampled dbEntity hmem
    obtain ⟨hkeyToken, hkeyMaker⟩ := Prod.mk.inj hrow'.key_eq
    have hbalanceEq : dbEntity.balance = .fin (sample.balance : ℕ) := by
      rw [hbalance', hn, transformed_natCast] at hbalance
      rw [hn]
      exact Option.some.inj hbalance
    have htimeEq : dbEntity.timeOfSample = sample.timeOfSample := by
      rw [htime'] at htime
      exact_mod_cast Option.some.inj htime
    right
    have hentity : dbEntity = ⟨sample.makerAddress, some sample.tokenAddress,
        .fin (sample.balance : ℕ), sample.timeOfSample⟩ := by
      rw [← hmaker, ← htoken, hkeyMaker, hkeyToken, ← hbalanceEq, ← htimeEq, ← hof.1, ← hof.2]
    show _ ∈ entities
    rw [← hentity]
    exact hmem

/-- A step makes no record of a sample but one that is true at that step. -/
theorem held_step {s : State Address} (hs : Invariant s) (e : Event Address) (sample : Sample)
    (h : Held (step encodeAddress s e) sample) :
    Held s sample ∨ Seen encodeAddress s sample := by
  obtain ⟨htable, _, hworker⟩ := hs
  have hby := htable.sampledBy
  have hsettle : ∀ m, (∃ n quotes makerToken cacheResults,
      (s.validations.settle m).call? n = some (.computing quotes makerToken cacheResults) ∧
        IsInRows cacheResults sample) → Held s sample := by
    rintro m ⟨n, quotes, makerToken, cacheResults, hcall, hrows⟩
    exact .inr (.inl ⟨n, quotes, makerToken, cacheResults, (InFlight.call?_of_settle hcall).2,
      hrows⟩)
  cases e with
  | clock ms => exact .inl h
  | chain chain => exact .inl h
  | validate quotes =>
    left
    simp only [RfqMakerBalances.step] at h
    split at h
    · rename_i makerToken _
      rcases h with hrows | ⟨n, quotes', makerToken', cacheResults, hcall, hrows⟩ | hpass
      · exact .inl hrows
      · rcases InFlight.call?_of_start hcall with ⟨_, hnew⟩ | hbefore
        · -- what is read is in the table
          cases hnew
          obtain ⟨row, hrow, hsample⟩ := hrows
          exact .inl ⟨row, List.mem_of_mem_filter hrow, hsample⟩
        · exact .inr (.inl ⟨n, quotes', makerToken', cacheResults, hbefore, hrows⟩)
      · exact .inr (.inr hpass)
    · exact h
  | compute n =>
    left
    simp only [RfqMakerBalances.step] at h
    split at h
    · split at h
      · rcases h with hrows | hcalls | hpass
        · exact .inl hrows
        · exact hsettle n hcalls
        · exact .inr (.inr hpass)
      · rcases h with hrows | ⟨m, quotes', makerToken', cacheResults, hcall, hrows⟩ | hpass
        · exact .inl hrows
        · rcases InFlight.call?_of_put hcall with ⟨_, hnew⟩ | hbefore
          · cases hnew
          · exact .inr (.inl ⟨m, quotes', makerToken', cacheResults, hbefore, hrows⟩)
        · exact .inr (.inr hpass)
      · rcases h with hrows | hcalls | hpass
        · exact .inl hrows
        · exact hsettle n hcalls
        · exact .inr (.inr hpass)
    · exact h
  | insert n ok =>
    left
    simp only [RfqMakerBalances.step] at h
    split at h
    · rename_i newMakers _
      rcases h with ⟨row, hrow, hsample⟩ | hcalls | hpass
      · cases ok with
        | false => exact .inl ⟨row, hrow, hsample⟩
        | true =>
          obtain ⟨added, hadded, hnew, _, _⟩ := insertNewMakers_spec s.now s.table newMakers
          have hrow : row ∈ insertNewMakers s.now s.table newMakers := hrow
          rw [hadded] at hrow
          rcases List.mem_append.mp hrow with hold | hrow
          · exact .inl ⟨row, hold, hsample⟩
          · -- a new row has no sample
            have hnone := (hnew row hrow).2.1
            rw [hsample.2.2.1] at hnone
            cases hnone
      · exact hsettle n hcalls
      · exact .inr (.inr hpass)
    · exact h
  | blockNumber newBlock =>
    rcases h with hrows | hcalls | hpass
    · exact .inl (.inl hrows)
    · exact .inl (.inr (.inl hcalls))
    · exact .inl (.inr (.inr
        ((Worker.onBlockNumber_spec hworker hby newBlock).2 sample hpass)))
  | makerTokens ok =>
    rcases h with hrows | hcalls | hpass
    · exact .inl (.inl hrows)
    · exact .inl (.inr (.inl hcalls))
    · exact .inl (.inr (.inr ((Worker.onMakerTokens_spec hworker hby ok).2 sample hpass)))
  | balances call ok =>
    rcases h with hrows | hcalls | hpass
    · exact .inl (.inl hrows)
    · exact .inl (.inr (.inl hcalls))
    · rcases (Worker.onBalances_spec hworker s.chain call ok).2 sample hpass with hold | hseen
      · exact .inl (.inr (.inr hold))
      · exact .inr hseen
  | saved ok =>
    left
    obtain ⟨entities, hrewritten, _, hheld, hsaved⟩ := Worker.onSaved_spec hworker ok
    rcases h with hrows | hcalls | hpass
    · rcases hsaved with rfl | ⟨newBlock, updateTime, hphase, hsaving⟩
      · obtain ⟨row', hrow', hsample⟩ := hrows
        obtain ⟨row, hrow, hrow'⟩ := Fallible.exists_of_mem_right hrewritten hrow'
        rcases hrow'.sample with rfl | ⟨_, hmem, _⟩
        · exact .inl ⟨_, hrow, hsample⟩
        · cases hmem
      · rcases isInRows_of_rewritten hrewritten hsaving hrows with hold | hpass
        · exact .inl hold
        · right
          right
          rw [hphase]
          exact hpass
    · exact .inr (.inl hcalls)
    · exact .inr (.inr (hheld sample hpass))
  | delayed =>
    rcases h with hrows | hcalls | hpass
    · exact .inl (.inl hrows)
    · exact .inl (.inr (.inl hcalls))
    · exact .inl (.inr (.inr ((Worker.onDelayed_spec hworker).2 sample hpass)))
  | restart =>
    rcases h with hrows | hcalls | hpass
    · exact .inl (.inl hrows)
    · exact .inl (.inr (.inl hcalls))
    · exact absurd hpass ((Worker.initial_spec s.table s.now).2 sample)

/-- Whatever is on record was true at some moment of the run. -/
theorem seenAlong_of_held (now : ℕ) (chain : ChainState Address) (es : List (Event Address))
    {sample : Sample} (h : Held (run (step encodeAddress) (initial now chain) es) sample) :
    SeenAlong (step encodeAddress) (Seen encodeAddress) (initial now chain) es sample := by
  refine Transition.seenAlong_of_held (fun _ e hs => hs.step e) ?_ (invariant_initial now chain)
    ?_ es h
  · intro s e a hs ha
    rcases held_step hs e a ha with hold | hseen
    · exact .inl hold
    · exact .inr (.inl hseen)
  · rintro a (⟨row, hrow, _⟩ | ⟨n, _, _, _, hcall, _⟩ | hpass)
    · cases hrow
    · rw [initial, InFlight.call?_empty] at hcall
      cases hcall
    · exact (Worker.initial_spec [] now).2 a hpass

/-! ## What the table is -/

section Results

variable (encodeAddress) (now : ℕ) (chain : ChainState Address)

/-- The state behind some events. -/
abbrev after (es : List (Event Address)) : State Address :=
  run (step encodeAddress) (initial now chain) es

/-- In every state the table is what the validator takes it for. -/
theorem exists_makerBalanceCache (es : List (Event Address)) :
    ∃ cache : MakerBalanceCache, cache.rows = (after encodeAddress now chain es).table := by
  have hinv : Invariant (after encodeAddress now chain es) := invariant_run now chain es
  obtain ⟨hkeys, hlower, hsampled⟩ := hinv.table
  refine ⟨⟨_, hkeys, hlower, ?_⟩, rfl⟩
  intro row hrow b hb
  rcases hsampled row hrow with ⟨hnone, _⟩ | ⟨n, _, hn, _⟩
  · rw [hnone] at hb
    cases hb
  · rw [hn] at hb
    cases hb
    exact BigNumber.isAmount_fin.mpr n.cast_nonneg

/-- A row that has been sampled has what its maker had on the chain at a moment that is no older
than the sample. -/
theorem sample_wasOnChain (es : List (Event Address)) {row : MakerBalanceChainCacheEntity}
    (hrow : row ∈ (after encodeAddress now chain es).table) {t : ℤ}
    (ht : row.timeOfSample = some t) :
    ∃ n time : ℕ, row.balance = some (.fin n) ∧ t = time ∧
      SeenAlong (step encodeAddress) (Seen encodeAddress) (initial now chain) es
        ⟨row.makerAddress, row.tokenAddress, n, time⟩ := by
  have hinv : Invariant (after encodeAddress now chain es) := invariant_run now chain es
  rcases hinv.table.sampled row hrow with ⟨_, hnone⟩ | ⟨n, time, hn, htime, _⟩
  · rw [hnone] at ht
    cases ht
  · rw [htime] at ht
    cases ht
    refine ⟨n, time, hn, rfl, seenAlong_of_held now chain es (.inl ?_)⟩
    exact ⟨row, hrow, rfl, rfl, hn, htime⟩

/-! ## What a validator answers -/

/-- Why an amount of a quote may be let through, when the table was read behind `read` and the
amount computed behind `computed`: the maker had it on the chain no more than the expiry before, or
the worker had not had the time to sample a new maker. -/
inductive Backed (read computed : List (Event Address)) (quote : RfqOrderFields) (amount : ℚ) :
    Prop where
  | nothing (hamount : amount = 0)
  | sampled (n time : ℕ)
    (hseen : SeenAlong (step encodeAddress) (Seen encodeAddress) (initial now chain) read
      ⟨quote.maker.toLower, quote.makerToken.toLower, n, time⟩)
    (hfresh : (after encodeAddress now chain computed).now ≤ time + RFQ_FIRM_QUOTE_CACHE_EXPIRY)
    (hcovered : Covered quote n amount)
  | awaited (hamount : amount = quote.takerAmount.toRat)
    (hnew : ∀ row ∈ (after encodeAddress now chain read).table, IsRowOf row quote →
      row.timeOfSample = none ∧ ((after encodeAddress now chain computed).now : ℤ) ≤
        row.timeFirstSeen.getD 0 + RFQ_FIRM_QUOTE_CACHE_EXPIRY)

variable {encodeAddress now chain}

/-- What the validator makes of a row is backed. -/
theorem backed_of_fillable {read computed : List (Event Address)} {cache : MakerBalanceCache}
    (hrows : cache.rows = (after encodeAddress now chain read).table) {quote : RfqOrderFields}
    {amount : ℚ}
    (h : Fillable RFQ_FIRM_QUOTE_CACHE_EXPIRY cache (after encodeAddress now chain computed).now
      quote amount) : Backed encodeAddress now chain read computed quote amount := by
  by_cases hrow : ∃ row ∈ cache.rows, IsRowOf row quote
  · obtain ⟨row, hrow, hof⟩ := hrow
    by_cases hlate : (RFQ_FIRM_QUOTE_CACHE_EXPIRY : ℤ) <
        (after encodeAddress now chain computed).now -
          row.timeOfSample.getD (row.timeFirstSeen.getD 0)
    · exact .nothing (h.expired row hrow hof hlate)
    · cases htime : row.timeOfSample with
      | none =>
        rw [htime, Option.getD_none] at hlate
        refine .awaited (h.awaited row hrow hof htime (not_lt.mp hlate)) ?_
        intro row' hrow' hof'
        rw [← hrows] at hrow'
        obtain rfl := isRowOf_unique hrow hrow' hof hof'
        exact ⟨htime, by omega⟩
      | some t =>
        rw [htime, Option.getD_some] at hlate
        have hmem : row ∈ (after encodeAddress now chain read).table := hrows ▸ hrow
        obtain ⟨n, time, hn, rfl, hseen⟩ :=
          sample_wasOnChain encodeAddress now chain read hmem htime
        obtain ⟨hlowerToken, hlowerMaker⟩ := cache.lowerCase row hrow
        rw [← hlowerToken, ← hlowerMaker, hof.1, hof.2] at hseen
        refine .sampled n time hseen (by omega) ?_
        exact h.sampled row hrow hof time n htime (not_lt.mp hlate) hn
  · have hno : ∀ row ∈ cache.rows, ¬ IsRowOf row quote :=
      fun row hrow' hof => hrow ⟨row, hrow', hof⟩
    refine .awaited (h.unknown hno) ?_
    intro row hrow' hof
    rw [← hrows] at hrow'
    exact absurd hof (hno row hrow')

/-- What a validation waits with was in the table when its query was answered, which is when it got
its number. -/
theorem computing_step {s : State Address} {e : Event Address} {n : ℕ}
    {quotes : List RfqOrderFields} {makerToken : String} {cacheResults : Table}
    (h : (step encodeAddress s e).validations.call? n =
      some (.computing quotes makerToken cacheResults)) :
    s.validations.call? n = some (.computing quotes makerToken cacheResults) ∨
      (e = .validate quotes ∧ s.validations.started = n ∧
        uniqueMakerToken quotes = some makerToken ∧
        cacheResults = findRows s.table makerToken (makerAddresses quotes)) := by
  cases e with
  | validate quotes' =>
    simp only [RfqMakerBalances.step] at h
    split at h
    · rename_i makerToken' hunique
      rcases InFlight.call?_of_start h with ⟨hn, hnew⟩ | hbefore
      · cases hnew
        exact .inr ⟨rfl, hn.symm, hunique, rfl⟩
      · exact .inl hbefore
    · exact .inl h
  | compute m =>
    left
    simp only [RfqMakerBalances.step] at h
    split at h
    · split at h
      · exact (InFlight.call?_of_settle h).2
      · rcases InFlight.call?_of_put h with ⟨_, hnew⟩ | hbefore
        · cases hnew
        · exact hbefore
      · exact (InFlight.call?_of_settle h).2
    · exact h
  | insert m ok =>
    left
    simp only [RfqMakerBalances.step] at h
    split at h
    · exact (InFlight.call?_of_settle h).2
    · exact h
  | _ => exact .inl h

/-- What a validation inserts and answers it has computed at its turn. -/
theorem inserting_step {s : State Address} {e : Event Address} {n : ℕ}
    {quotes : List RfqOrderFields} {amounts : List BigNumber} {newMakers : List NewMaker}
    (h : (step encodeAddress s e).validations.call? n =
      some (.inserting quotes amounts newMakers)) :
    s.validations.call? n = some (.inserting quotes amounts newMakers) ∨
      (e = .compute n ∧ ∃ makerToken cacheResults,
        s.validations.call? n = some (.computing quotes makerToken cacheResults) ∧
          computeTakerFillableAmounts RFQ_FIRM_QUOTE_CACHE_EXPIRY makerToken cacheResults s.now
            quotes = .ok (amounts, newMakers)) := by
  cases e with
  | validate quotes' =>
    left
    simp only [RfqMakerBalances.step] at h
    split at h
    · rcases InFlight.call?_of_start h with ⟨_, hnew⟩ | hbefore
      · cases hnew
      · exact hbefore
    · exact h
  | compute m =>
    simp only [RfqMakerBalances.step] at h
    split at h
    · rename_i quotes' makerToken cacheResults hcomputing
      split at h
      · exact .inl (InFlight.call?_of_settle h).2
      · rename_i amounts' newMaker newMakers' hcompute
        rcases InFlight.call?_of_put h with ⟨rfl, hnew⟩ | hbefore
        · cases hnew
          exact .inr ⟨rfl, makerToken, cacheResults, hcomputing, hcompute⟩
        · exact .inl hbefore
      · exact .inl (InFlight.call?_of_settle h).2
    · exact .inl h
  | insert m ok =>
    left
    simp only [RfqMakerBalances.step] at h
    split at h
    · exact (InFlight.call?_of_settle h).2
    · exact h
  | _ => exact .inl h

omit [DecidableEq Address] in
/-- No validation is under way at the start. -/
theorem call?_initial (n : ℕ) : (initial now chain).validations.call? n = none :=
  InFlight.call?_empty n

theorem exists_validate_of_computing (es : List (Event Address)) {n : ℕ}
    {quotes : List RfqOrderFields} {makerToken : String} {cacheResults : Table}
    (h : (after encodeAddress now chain es).validations.call? n =
      some (.computing quotes makerToken cacheResults)) :
    ∃ read later, es = read ++ .validate quotes :: later ∧
      (after encodeAddress now chain read).validations.started = n ∧
      uniqueMakerToken quotes = some makerToken ∧
      cacheResults = findRows (after encodeAddress now chain read).table makerToken
        (makerAddresses quotes) := by
  have hnone : ¬ (initial now chain).validations.call? n =
      some (.computing quotes makerToken cacheResults) := by
    rw [call?_initial]
    exact nofun
  obtain ⟨read, _, later, hsplit, rfl, hmade⟩ :=
    @exists_step_of_held _ _ _ (fun _ => True)
      (fun s : State Address =>
        s.validations.call? n = some (.computing quotes makerToken cacheResults)) _
      (fun _ _ => id) (fun _ _ _ => computing_step) _ trivial hnone es h
  exact ⟨read, later, hsplit, hmade⟩

theorem exists_compute_of_inserting (es : List (Event Address)) {n : ℕ}
    {quotes : List RfqOrderFields} {amounts : List BigNumber} {newMakers : List NewMaker}
    (h : (after encodeAddress now chain es).validations.call? n =
      some (.inserting quotes amounts newMakers)) :
    ∃ computed later makerToken cacheResults, es = computed ++ .compute n :: later ∧
      (after encodeAddress now chain computed).validations.call? n =
        some (.computing quotes makerToken cacheResults) ∧
      computeTakerFillableAmounts RFQ_FIRM_QUOTE_CACHE_EXPIRY makerToken cacheResults
        (after encodeAddress now chain computed).now quotes = .ok (amounts, newMakers) := by
  have hnone : ¬ (initial now chain).validations.call? n =
      some (.inserting quotes amounts newMakers) := by
    rw [call?_initial]
    exact nofun
  obtain ⟨computed, _, later, hsplit, rfl, makerToken, cacheResults, hmade⟩ :=
    @exists_step_of_held _ _ _ (fun _ => True)
      (fun s : State Address =>
        s.validations.call? n = some (.inserting quotes amounts newMakers)) _
      (fun _ _ => id) (fun _ _ _ => inserting_step) _ trivial hnone es h
  exact ⟨computed, later, makerToken, cacheResults, hsplit, hmade⟩

variable (encodeAddress now chain) in
/-- The validation with a number read the table behind `read`, before `computed`. -/
def ReadBehind (read computed : List (Event Address)) (n : ℕ) (quotes : List RfqOrderFields) :
    Prop :=
  (after encodeAddress now chain read).validations.started = n ∧
    ∃ later, computed = read ++ .validate quotes :: later

variable (encodeAddress now chain) in
/-- The moments of the validation that is answered at an event behind `es`: it read the table behind
`read` and had its turn behind `computed`. -/
def Moments (es : List (Event Address)) (e : Event Address) (quotes : List RfqOrderFields)
    (read computed : List (Event Address)) : Prop :=
  match e with
  | .validate quotes' => quotes' = quotes ∧ read = es ∧ computed = es
  | .compute n => computed = es ∧ ReadBehind encodeAddress now chain read computed n quotes
  | .insert n _ =>
    (∃ later, es = computed ++ .compute n :: later) ∧
      ReadBehind encodeAddress now chain read computed n quotes
  | _ => False

/-- Quotes as the validator has to be given them. -/
structure Askable (quotes : List RfqOrderFields) : Prop where
  positive : ∀ q ∈ quotes, q.Positive
  address : ∀ q ∈ quotes, q.maker.toLower ∉ objectPrototypeNames

/-- The amounts of a batch, each with its quote and backed. -/
def AllBacked (encodeAddress : String → Except JsError Address) (now : ℕ)
    (chain : ChainState Address)
    (read computed : List (Event Address)) (quotes : List RfqOrderFields)
    (amounts : List BigNumber) : Prop :=
  List.Forall₂ (fun quote amount => ∃ r : ℚ, amount = .fin r ∧ 0 ≤ r ∧
    r ≤ quote.takerAmount.toRat ∧ Backed encodeAddress now chain read computed quote r)
    quotes amounts

/-- What a validation computes is backed. -/
theorem computed_backed (computed : List (Event Address)) {n : ℕ} {quotes : List RfqOrderFields}
    {makerToken : String} {cacheResults : Table} {amounts : List BigNumber}
    {newMakers : List NewMaker}
    (hcall : (after encodeAddress now chain computed).validations.call? n =
      some (.computing quotes makerToken cacheResults))
    (hcompute : computeTakerFillableAmounts RFQ_FIRM_QUOTE_CACHE_EXPIRY makerToken cacheResults
      (after encodeAddress now chain computed).now quotes = .ok (amounts, newMakers))
    (hquotes : Askable quotes) :
    ∃ read, ReadBehind encodeAddress now chain read computed n quotes ∧
      AllBacked encodeAddress now chain read computed quotes amounts := by
  obtain ⟨read, later, hsplit, hstarted, hunique, hresults⟩ :=
    exists_validate_of_computing computed hcall
  obtain ⟨cache, hrows⟩ := exists_makerBalanceCache encodeAddress now chain read
  refine ⟨read, ⟨hstarted, later, hsplit⟩, ?_⟩
  obtain ⟨amounts', newMakers', hresult, hsound⟩ := fillable_sound RFQ_FIRM_QUOTE_CACHE_EXPIRY cache
    (after encodeAddress now chain computed).now quotes hquotes.positive hquotes.address
  -- at the moment it read, the validator as a whole would have found the same
  have hwhole := getRfqtTakerFillableAmounts_eq RFQ_FIRM_QUOTE_CACHE_EXPIRY cache
    (after encodeAddress now chain computed).now quotes
  rw [hunique] at hwhole
  dsimp only at hwhole
  rw [hrows, ← hresults, hcompute, hresult] at hwhole
  cases hwhole
  have hsame : ∀ q ∈ quotes, ∀ q' ∈ quotes, q.makerToken.toLower = q'.makerToken.toLower := by
    intro q hq q' hq'
    rw [eq_of_uniqueMakerToken hunique hq, eq_of_uniqueMakerToken hunique hq']
  apply (hsound.fillable hsame).imp
  rintro quote amount ⟨r, rfl, hr⟩
  exact ⟨r, rfl, hr.nonneg, hr.le, backed_of_fillable hrows hr⟩

/-- Whatever happens between the moments of a validation and elsewhere, each amount it resolves to
is backed by what the maker had on the chain no more than the expiry before it was computed, or the
maker was new when the validation read the table. -/
theorem answer_backed (es : List (Event Address)) (e : Event Address)
    {quotes : List RfqOrderFields} {amounts : List BigNumber}
    (h : answer (after encodeAddress now chain es) e = some (quotes, amounts))
    (hquotes : Askable quotes) :
    ∃ read computed, Moments encodeAddress now chain es e quotes read computed ∧
      AllBacked encodeAddress now chain read computed quotes amounts := by
  cases e with
  | validate quotes' =>
    simp only [answer] at h
    split at h
    · cases h
    · cases h
      refine ⟨es, es, ⟨rfl, rfl, rfl⟩, ?_⟩
      unfold AllBacked
      rw [List.forall₂_map_right_iff, List.forall₂_same]
      intro quote hquote
      exact ⟨0, rfl, le_rfl, (hquotes.positive quote hquote).takerAmount_pos.le, .nothing rfl⟩
  | compute n =>
    simp only [answer] at h
    split at h
    · rename_i hcall
      split at h
      · rename_i hcompute
        cases h
        obtain ⟨read, hread, hbacked⟩ := computed_backed es hcall hcompute hquotes
        exact ⟨read, es, ⟨rfl, hread⟩, hbacked⟩
      · cases h
    · cases h
  | insert n ok =>
    simp only [answer] at h
    split at h
    · rename_i hcall
      split at h
      · cases h
        obtain ⟨computed, later, makerToken, cacheResults, hsplit, hcomputing, hcompute⟩ :=
          exists_compute_of_inserting es hcall
        obtain ⟨read, hread, hbacked⟩ := computed_backed computed hcomputing hcompute hquotes
        exact ⟨read, computed, ⟨⟨later, hsplit⟩, hread⟩, hbacked⟩
      · cases h
    · cases h
  | _ => cases h

/-! ## What stays -/

/-- A row at a later time: the same maker with the same token, seen first when it was, and sampled
no earlier. -/
structure Kept (row row' : MakerBalanceChainCacheEntity) : Prop where
  key_eq : key row' = key row
  timeFirstSeen_eq : row'.timeFirstSeen = row.timeFirstSeen
  sampled : ∀ t, row.timeOfSample = some t → ∃ t', row'.timeOfSample = some t' ∧ t ≤ t'

theorem Kept.refl (row : MakerBalanceChainCacheEntity) : Kept row row :=
  ⟨rfl, rfl, fun t ht => ⟨t, ht, le_rfl⟩⟩

theorem Kept.trans {row row' row'' : MakerBalanceChainCacheEntity} (h : Kept row row')
    (h' : Kept row' row'') : Kept row row'' := by
  refine ⟨h'.key_eq.trans h.key_eq, h'.timeFirstSeen_eq.trans h.timeFirstSeen_eq, ?_⟩
  intro t ht
  obtain ⟨t', ht', hle⟩ := h.sampled t ht
  obtain ⟨t'', ht'', hle'⟩ := h'.sampled t' ht'
  exact ⟨t'', ht'', hle.trans hle'⟩

/-- No step loses a row, changes when it was first seen, or replaces its sample by an older one. -/
theorem kept_step {s : State Address} (hs : Invariant s) (e : Event Address) :
    ∀ row ∈ s.table, ∃ row' ∈ (step encodeAddress s e).table, Kept row row' := by
  have hsame : ∀ row ∈ s.table, ∃ row' ∈ s.table, Kept row row' :=
    fun row hrow => ⟨row, hrow, .refl row⟩
  cases e with
  | validate quotes =>
    simp only [RfqMakerBalances.step]
    split
    · exact hsame
    · exact hsame
  | compute n =>
    simp only [RfqMakerBalances.step]
    split
    · split
      · exact hsame
      · exact hsame
      · exact hsame
    · exact hsame
  | insert n ok =>
    simp only [RfqMakerBalances.step]
    split
    · rename_i newMakers _
      cases ok with
      | false => exact hsame
      | true =>
        obtain ⟨added, hadded, _⟩ := insertNewMakers_spec s.now s.table newMakers
        intro row hrow
        refine ⟨row, ?_, .refl row⟩
        show row ∈ insertNewMakers s.now s.table newMakers
        rw [hadded]
        exact List.mem_append_left _ hrow
    · exact hsame
  | saved ok =>
    obtain ⟨entities, hrewritten, _, _, hpass⟩ := Worker.onSaved_spec hs.worker ok
    intro row hrow
    obtain ⟨row', hrow', hrewrite⟩ := Fallible.exists_of_mem_left hrewritten hrow
    refine ⟨row', hrow', hrewrite.key_eq, hrewrite.timeFirstSeen_eq, ?_⟩
    intro t ht
    rcases hrewrite.sample with rfl | ⟨dbEntity, hmem, _, _, htime⟩
    · exact ⟨t, ht, le_rfl⟩
    · rcases hpass with rfl | ⟨newBlock, updateTime, _, hsaving⟩
      · cases hmem
      · refine ⟨_, htime, ?_⟩
        rw [(hsaving.sampled dbEntity hmem).1]
        exact hsaving.sampledBy row hrow t ht
  | _ => exact hsame

/-- Rows stay: a maker that has been added is never lost, nor added again, and samples of it are
replaced only by newer ones. -/
theorem rows_kept (es more : List (Event Address)) :
    (∀ row ∈ (after encodeAddress now chain es).table,
      ∃ row' ∈ (after encodeAddress now chain (es ++ more)).table, Kept row row') ∧
      ((after encodeAddress now chain (es ++ more)).table.map key).Nodup := by
  refine ⟨?_, (invariant_run now chain (es ++ more)).table.primaryKey⟩
  unfold after
  rw [run_append]
  have hall : Invariant (run (step encodeAddress) (after encodeAddress now chain es) more) ∧
      ∀ row ∈ (after encodeAddress now chain es).table,
        ∃ row' ∈ (run (step encodeAddress) (after encodeAddress now chain es) more).table,
          Kept row row' := by
    apply run_invariant (I := fun s => Invariant s ∧
      ∀ row ∈ (after encodeAddress now chain es).table, ∃ row' ∈ s.table, Kept row row')
    · rintro s e ⟨hs, hkept⟩
      refine ⟨hs.step e, ?_⟩
      intro row hrow
      obtain ⟨row', hrow', hk⟩ := hkept row hrow
      have hstep : ∀ row ∈ s.table, ∃ row' ∈ (step encodeAddress s e).table, Kept row row' :=
        kept_step hs e
      obtain ⟨row'', hrow'', hk'⟩ := hstep row' hrow'
      exact ⟨row'', hrow'', hk.trans hk'⟩
    · exact ⟨invariant_run now chain es, fun row hrow => ⟨row, hrow, .refl row⟩⟩
  exact hall.2

/-! ## What a pass is about -/

/-- The makers that a pass begins to ask about at an event, with its block: those that are cached,
or those of the table as it is; where it cannot be read, those that were cached when it was asked
for. -/
def passBegun (s : State Address) : Event Address → Option (ℕ × List MakerToken)
  | .blockNumber (some newBlock) =>
    if s.worker.phase = .requestingBlock ∧ s.worker.lastBlockSeen < newBlock then
      ({ s.worker.makerTokenCache with now := s.now }.getResult MAKER_TOKEN_CACHE ()).2.map
        fun (cached : CachedResult (List MakerToken)) => (newBlock, cached.result)
    else
      none
  | .makerTokens ok =>
    match s.worker.phase with
    | .readingMakerTokens newBlock call =>
      match s.worker.makerTokenCache.calls.call? call with
      | none => none
      | some waiting =>
        if ok then
          some (newBlock, makerTokens s.table)
        else
          match ({ s.worker.makerTokenCache with now := s.now }.afterError MAKER_TOKEN_CACHE call
              waiting ()).2 with
          | .ok cached => some (newBlock, cached.result)
          | .error _ => none
    | _ => none
  | _ => none

variable (encodeAddress) in
/-- What an event does to the pass of the worker. -/
inductive PassStep (s : State Address) (e : Event Address) : Prop
  | same (phase_eq : (step encodeAddress s e).worker.phase = s.worker.phase)
  | goesOn (newBlock updateTime : ℕ) (balancesCallInput : BalancesCallInput)
    (balances balances' : List (Option (List ℕ))) (w : Worker)
    (phase_eq : s.worker.phase = .checkingBalances newBlock updateTime balancesCallInput balances)
    (worker_eq : (step encodeAddress s e).worker =
      w.collect newBlock updateTime balancesCallInput balances')
  | ends (notInPass : ¬ InPass (step encodeAddress s e).worker.phase)
  | begins (newBlock : ℕ) (makerTokens : List MakerToken)
    (begun : passBegun s e = some (newBlock, makerTokens))
    (isPassOf : IsPassOf newBlock s.now makerTokens (step encodeAddress s e).worker.phase)

theorem not_inPass_top (w : Worker) : ¬ InPass w.top.phase :=
  Worker.not_inPass_of_betweenPasses w.top_betweenPasses

theorem passStep_blockNumber (s : State Address) (newBlock : Option ℕ) :
    PassStep encodeAddress s (.blockNumber newBlock) := by
  cases hphase : s.worker.phase with
  | requestingBlock =>
    cases newBlock with
    | none =>
      refine .ends ?_
      simp only [RfqMakerBalances.step, Worker.onBlockNumber, hphase]
      exact not_inPass_top _
    | some newBlock =>
      by_cases hnew : s.worker.lastBlockSeen < newBlock
      · have hnext : (step encodeAddress s (.blockNumber (some newBlock))).worker =
            s.worker.cacheRfqBalances s.now newBlock := by
          simp only [RfqMakerBalances.step, Worker.onBlockNumber, hphase, if_pos hnew]
        unfold Worker.cacheRfqBalances at hnext
        split at hnext
        rename_i makerTokenCache cached hresult
        cases cached with
        | none =>
          refine .ends ?_
          rw [hnext]
          exact not_false
        | some cached =>
          have hbegun : passBegun s (.blockNumber (some newBlock)) =
              some (newBlock, cached.result) := by
            simp only [passBegun]
            rw [if_pos ⟨hphase, hnew⟩, hresult]
            rfl
          refine .begins newBlock cached.result hbegun ?_
          rw [hnext]
          exact Worker.isPassOf_checkBalances _ s.now newBlock cached.result
      · refine .ends ?_
        simp only [RfqMakerBalances.step, Worker.onBlockNumber, hphase, if_neg hnew]
        exact not_false
  | _ =>
    refine .same ?_
    simp only [RfqMakerBalances.step, Worker.onBlockNumber, hphase]

theorem passStep_makerTokens (s : State Address) (ok : Bool) :
    PassStep encodeAddress s (.makerTokens ok) := by
  cases hphase : s.worker.phase with
  | readingMakerTokens newBlock call =>
    cases hcall : s.worker.makerTokenCache.calls.call? call with
    | none =>
      refine .same ?_
      simp only [RfqMakerBalances.step, Worker.onMakerTokens, hphase, hcall]
    | some waiting =>
      cases ok with
      | true =>
        have hbegun : passBegun s (.makerTokens true) = some (newBlock, makerTokens s.table) := by
          simp only [passBegun, hphase, hcall]
          rfl
        refine .begins newBlock (makerTokens s.table) hbegun ?_
        simp only [RfqMakerBalances.step, Worker.onMakerTokens, hphase, hcall]
        exact Worker.isPassOf_checkBalances _ s.now newBlock (makerTokens s.table)
      | false =>
        cases hresult : ({ s.worker.makerTokenCache with now := s.now }.afterError MAKER_TOKEN_CACHE
            call waiting ()).2 with
        | ok cached =>
          have hbegun : passBegun s (.makerTokens false) = some (newBlock, cached.result) := by
            simp only [passBegun, hphase, hcall, if_neg Bool.false_ne_true, hresult]
          refine .begins newBlock cached.result hbegun ?_
          simp only [RfqMakerBalances.step, Worker.onMakerTokens, hphase, hcall,
            if_neg Bool.false_ne_true]
          split
          · rename_i makerTokenCache cached' hsame
            rw [hsame] at hresult
            cases hresult
            exact Worker.isPassOf_checkBalances _ s.now newBlock cached.result
          · rename_i makerTokenCache error hsame
            rw [hsame] at hresult
            cases hresult
        | error error =>
          refine .ends ?_
          simp only [RfqMakerBalances.step, Worker.onMakerTokens, hphase, hcall,
            if_neg Bool.false_ne_true]
          split
          · rename_i makerTokenCache cached' hsame
            rw [hsame] at hresult
            cases hresult
          · exact not_inPass_top _
  | _ =>
    refine .same ?_
    simp only [RfqMakerBalances.step, Worker.onMakerTokens, hphase]

variable (encodeAddress) in
/-- At a step the pass of the worker stays as it is, or goes on, or is over, or begins. -/
theorem passStep (s : State Address) (e : Event Address) : PassStep encodeAddress s e := by
  cases e with
  | clock ms => exact .same rfl
  | chain chain => exact .same rfl
  | validate quotes => exact .same (by rw [worker_step_validate])
  | compute n => exact .same (by rw [worker_step_compute])
  | insert n ok => exact .same (by rw [worker_step_insert])
  | blockNumber newBlock => exact passStep_blockNumber s newBlock
  | makerTokens ok => exact passStep_makerTokens s ok
  | balances call ok =>
    cases hphase : s.worker.phase with
    | checkingBalances newBlock updateTime balancesCallInput balances =>
      have hnext : (step encodeAddress s (.balances call ok)).worker =
          s.worker.onBalances encodeAddress s.chain call ok := rfl
      unfold Worker.onBalances at hnext
      rw [hphase] at hnext
      dsimp only at hnext
      split at hnext
      · split at hnext
        · exact .goesOn _ _ _ _ _ _ hphase hnext
        · exact .ends (hnext ▸ not_inPass_top _)
      · exact .same (congrArg Worker.phase hnext)
    | _ =>
      refine .same ?_
      simp only [RfqMakerBalances.step, Worker.onBalances, hphase]
  | saved ok =>
    cases hphase : s.worker.phase with
    | saving newBlock toSave =>
      refine .ends ?_
      simp only [RfqMakerBalances.step, Worker.onSaved, hphase]
      split
      · exact not_false
      · exact not_inPass_top _
    | _ =>
      refine .same ?_
      simp only [RfqMakerBalances.step, Worker.onSaved, hphase]
  | delayed =>
    cases hphase : s.worker.phase with
    | delaying until_ =>
      refine .ends ?_
      simp only [RfqMakerBalances.step, Worker.onDelayed, hphase]
      split
      · exact not_inPass_top _
      · rw [hphase]
        exact not_false
    | _ =>
      refine .same ?_
      simp only [RfqMakerBalances.step, Worker.onDelayed, hphase]
  | restart => exact .ends (not_inPass_top _)

/-- A pass that asks, or saves, has begun at an event of the run, and is about the makers it then
read. -/
theorem exists_passBegun (es : List (Event Address))
    (h : InPass (after encodeAddress now chain es).worker.phase) :
    ∃ past e future newBlock makerTokens, es = past ++ e :: future ∧
      passBegun (after encodeAddress now chain past) e = some (newBlock, makerTokens) ∧
      IsPassOf newBlock (after encodeAddress now chain past).now makerTokens
        (after encodeAddress now chain es).worker.phase := by
  induction es using List.reverseRecOn with
  | nil => exact absurd h (Worker.not_inPass_of_betweenPasses (Worker.top_betweenPasses _))
  | append_singleton es e ih =>
    have hstep : after encodeAddress now chain (es ++ [e]) =
        step encodeAddress (after encodeAddress now chain es) e := by
      unfold after
      rw [run_append, run_cons, run_nil]
    rw [hstep] at h ⊢
    cases passStep encodeAddress (after encodeAddress now chain es) e with
    | same hsame =>
      rw [hsame] at h ⊢
      obtain ⟨past, e', future, newBlock, mts, rfl, hbegun, hof⟩ := ih h
      exact ⟨past, e', future ++ [e], newBlock, mts, by simp, hbegun, hof⟩
    | goesOn _ _ _ _ balances' w hphase hcollect =>
      rw [hphase] at ih
      obtain ⟨past, e', future, newBlock, mts, rfl, hbegun, hof⟩ := ih trivial
      obtain ⟨rfl, rfl, rfl⟩ := hof
      refine ⟨past, e', future ++ [e], _, mts, by simp, hbegun, ?_⟩
      rw [hcollect]
      exact Worker.isPassOf_collect w _ _ mts balances'
    | ends hends => exact absurd h hends
    | begins newBlock mts hbegun hof => exact ⟨es, e, [], newBlock, mts, rfl, hbegun, hof⟩

/-- What a pass has collected can always be saved: an entity for each maker that it read, with the
time at which it began to ask.  And then the row of each of them has that time. -/
theorem pass_refreshes (es : List (Event Address)) {newBlock : ℕ} {toSave : List SampledBalance}
    (h : (after encodeAddress now chain es).worker.phase = .saving newBlock toSave) :
    (∃ past e future makerTokens, es = past ++ e :: future ∧
        passBegun (after encodeAddress now chain past) e = some (newBlock, makerTokens) ∧
        toSave.map (fun dbEntity =>
            (dbEntity.makerAddress, dbEntity.tokenAddress, dbEntity.timeOfSample)) =
          makerTokens.map fun makerToken => (makerToken.makerAddress,
            some makerToken.tokenAddress, (after encodeAddress now chain past).now)) ∧
      ∃ table', save (after encodeAddress now chain es).table toSave = some table' ∧
        (after encodeAddress now chain (es ++ [.saved true])).table = table' ∧
        ∀ dbEntity ∈ toSave, ∃ row ∈ table', IsOf dbEntity row ∧
          row.timeOfSample = some (dbEntity.timeOfSample : ℤ) := by
  refine ⟨?_, ?_⟩
  · have hpass : InPass (after encodeAddress now chain es).worker.phase := by
      rw [h]
      trivial
    obtain ⟨past, e, future, _, makerTokens, hsplit, hbegun, hof⟩ := exists_passBegun es hpass
    rw [h] at hof
    obtain ⟨rfl, balances, rfl⟩ := hof
    exact ⟨past, e, future, makerTokens, hsplit, hbegun, map_toSave makerTokens balances _⟩
  have hinv : Invariant (after encodeAddress now chain es) := invariant_run now chain es
  have hpass := hinv.worker.pass
  unfold after at h hpass ⊢
  rw [h] at hpass
  obtain ⟨updateTime, hsaving⟩ := hpass
  obtain ⟨table', htable'⟩ := exists_save fun dbEntity hmem => by
    obtain ⟨_, tokenAddress, _, htoken, _, hkey⟩ := hsaving.sampled dbEntity hmem
    exact ⟨tokenAddress, htoken, hkey⟩
  refine ⟨table', htable', ?_, ?_⟩
  · rw [run_append, run_cons, run_nil]
    simp only [RfqMakerBalances.step, Worker.onSaved, h, htable']
  · intro dbEntity hmem
    obtain ⟨htime, tokenAddress, _, htoken, _, hkey⟩ := hsaving.sampled dbEntity hmem
    obtain ⟨row, hrow, hkeyEq⟩ := List.mem_map.mp hkey
    obtain ⟨hrowToken, hrowMaker⟩ := Prod.mk.inj hkeyEq
    obtain ⟨row', hrow', hrewrite⟩ := Fallible.exists_of_mem_left (save_spec htable') hrow
    have hof : IsOf dbEntity row := ⟨by rw [htoken, hrowToken], hrowMaker.symm⟩
    obtain ⟨e, he, _, _, htime'⟩ := hrewrite.hit ⟨dbEntity, hmem, hof⟩
    refine ⟨row', hrow', (hrewrite.isOf dbEntity).mpr hof, ?_⟩
    rw [htime', (hsaving.sampled e he).1, htime]

end Results

end Run

/-! ### A maker that is validated, and then sampled -/

/-- The ABI encoder on strings of 40 hexadecimal digits behind `0x`. -/
def encodeHex (value : String) : Except JsError ℕ :=
  match value.toList with
  | '0' :: 'x' :: digits =>
    if digits.length = 40 then .ok (JsString.parseHex digits) else .error .typeError
  | _ => .error .typeError

def dai : String := "0x6b175474e89094c44da98b954eedeac495271d0f"

def maker : String := "0x00000000000000000000000000000000000000aa"

/-- A token of which every account has 50, of which 40 may be taken. -/
def fiftyEach : ChainState ℕ where
  ETH := 0xeeeeeeeeeeeeeeeeeeeeeeeeeeeeeeeeeeeeeeee
  token _ := { balanceOf := fun _ => .ok 50, allowance := fun _ _ => .ok 40 }
  ethBalance _ := 0

/-- Ten for eighty of the maker. -/
def eightyQuote : RfqOrderFields := ⟨maker, dai, .fin 80, .fin 10⟩

deriving instance DecidableEq for RfqOrderFields, MakerBalanceChainCacheEntity

/-- The maker is added by a validation, and half a second later sampled by a pass. -/
def validated : List (Event ℕ) := [.validate [eightyQuote], .compute 0]

def sampled : List (Event ℕ) :=
  validated ++ [.insert 0 true, .clock 500, .blockNumber (some 1), .makerTokens true,
    .balances 0 true]

/-- The row of the maker behind the pass. -/
def sampledRow : MakerBalanceChainCacheEntity :=
  ⟨dai, maker, some 1000, some (.fin 40), some 1500⟩

theorem sampled_phase : (after encodeHex 1000 fiftyEach sampled).worker.phase =
    .saving 1 [⟨maker, some dai, .fin 40, 1500⟩] := by decide +kernel

theorem sampled_table :
    (after encodeHex 1000 fiftyEach (sampled ++ [.saved true])).table = [sampledRow] := by
  decide +kernel

/-- What is saved for the maker may be taken of it. -/
theorem sampled_wasOnChain : ∃ n time : ℕ, sampledRow.balance = some (.fin n) ∧ 1500 = (time : ℤ) ∧
    SeenAlong (step encodeHex) (Seen encodeHex) (initial 1000 fiftyEach) (sampled ++ [.saved true])
      ⟨maker, dai, n, time⟩ :=
  sample_wasOnChain encodeHex 1000 fiftyEach (sampled ++ [.saved true])
    (sampled_table ▸ List.mem_singleton_self sampledRow) rfl

/-- The pass can be saved. -/
theorem sampled_refreshes :
    (∃ past e future makerTokens, sampled = past ++ e :: future ∧
        passBegun (after encodeHex 1000 fiftyEach past) e = some (1, makerTokens) ∧
        [(maker, some dai, 1500)] =
          makerTokens.map fun makerToken => (makerToken.makerAddress,
            some makerToken.tokenAddress, (after encodeHex 1000 fiftyEach past).now)) ∧
      ∃ table',
        save (after encodeHex 1000 fiftyEach sampled).table [⟨maker, some dai, .fin 40, 1500⟩] =
            some table' ∧
          (after encodeHex 1000 fiftyEach (sampled ++ [.saved true])).table = table' ∧
          ∀ dbEntity ∈ [(⟨maker, some dai, .fin 40, 1500⟩ : SampledBalance)], ∃ row ∈ table',
            IsOf dbEntity row ∧ row.timeOfSample = some (dbEntity.timeOfSample : ℤ) :=
  pass_refreshes sampled sampled_phase

/-! ### A maker that is asked about twice -/

/-- Every address has its length. -/
def anyAddress (address : String) : Except JsError ℕ := .ok address.length

/-- The same amounts of another token of another maker. -/
def shortQuote : RfqOrderFields := ⟨"m", "d", .fin 80, .fin 10⟩

theorem shortQuote_askable : Askable [shortQuote] := by
  have hten : (0 : ℚ) < 10 := by norm_num
  have heighty : (0 : ℚ) < 80 := by norm_num
  refine ⟨?_, by decide +kernel⟩
  intro q hq
  rw [List.mem_singleton.mp hq]
  exact ⟨rfl, heighty, rfl, hten⟩

/-- The maker is added by a validation, sampled by a pass, and asked about once more. -/
def askedTwice : List (Event ℕ) :=
  [.validate [shortQuote], .compute 0, .insert 0 true, .clock 500, .blockNumber (some 1),
    .makerTokens true, .balances 0 true, .saved true, .validate [shortQuote], .clock 100000]

theorem askedTwice_answer :
    answer (after anyAddress 1000 fiftyEach askedTwice) (.compute 1)
      = some ([shortQuote], [.fin 5]) := by
  decide +kernel

/-- Of the ten five are let through, as there are forty of eighty. -/
theorem shortQuote_backed : ∃ read computed,
    Moments anyAddress 1000 fiftyEach askedTwice (.compute 1) [shortQuote] read computed ∧
      AllBacked anyAddress 1000 fiftyEach read computed [shortQuote] [.fin 5] :=
  answer_backed askedTwice (.compute 1) askedTwice_answer shortQuote_askable

end ZeroExApi.RfqMakerBalances
