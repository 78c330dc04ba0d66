/-
# ZeroExApi.RfqWorkerLoop — blocks and errors of the worker

The loop of `runRfqBalanceCacheAsync` in the system of `RfqMakerBalances`.  As long as the process
lives, it saves for each block at most once and in the order of their numbers, and it exits at the
tenth failure of a kind, whatever came in between: successes do not reset the counters
(`worker_outcomes`).
-/

import ZeroExApi.RfqMakerBalances

namespace ZeroExApi.RfqWorkerLoop

open ZeroExApi.Lib.Transition ZeroExApi.BalanceChecker ZeroExApi.MakerBalanceCacheRunner
open ZeroExApi.RfqMakerBalances

/-! ## What becomes of requests and passes -/

/-- What ends a request for a block, or a pass. -/
inductive Outcome where
  | requestFailed
  | passFailed
  | saved (newBlock : ℕ)
  deriving DecidableEq

/-- The worker waits for a block, or has exited. -/
def isBetweenPasses : Phase → Bool
  | .requestingBlock => true
  | .exited _ => true
  | _ => false

/-- The block of a pass. -/
def newBlock? : Phase → Option ℕ
  | .readingMakerTokens newBlock _ => some newBlock
  | .checkingBalances newBlock _ _ _ => some newBlock
  | .saving newBlock _ => some newBlock
  | _ => none

section Step

variable {Address : Type} [DecidableEq Address] (encodeAddress : String → Except JsError Address)

/-- What ends at an event. -/
def outcome (s : State Address) (e : Event Address) : Option Outcome :=
  let ended := isBetweenPasses (step encodeAddress s e).worker.phase
  match s.worker.phase, e with
  | .requestingBlock, .blockNumber none => some .requestFailed
  | .readingMakerTokens _ _, .makerTokens _ => if ended then some .passFailed else none
  | .checkingBalances _ _ _ _, .balances _ _ => if ended then some .passFailed else none
  | .saving newBlock _, .saved _ =>
    if ended then some .passFailed else some (.saved newBlock)
  | _, _ => none

/-- The outcomes of a run, in order. -/
def outcomes (s : State Address) (es : List (Event Address)) : List Outcome :=
  observed (step encodeAddress) (outcome encodeAddress) s es

end Step

/-- The blocks that were saved, in order. -/
def savedBlocks (os : List Outcome) : List ℕ :=
  os.filterMap fun
    | .saved newBlock => some newBlock
    | _ => none

/-! ## The worker and its outcomes -/

/-- The variables of the loop count the outcomes. -/
structure Counts (os : List Outcome) (w : Worker) : Prop where
  requests : w.blockRequestErrors = os.count .requestFailed
  passes : w.cacheRfqBalanceErrors = os.count .passFailed
  requests_le : w.blockRequestErrors ≤ MAX_REQUEST_ERRORS
  passes_le : w.cacheRfqBalanceErrors ≤ MAX_CACHE_RFQ_BALANCES_ERRORS
  exited_iff : (∃ message, w.phase = .exited message) ↔
    w.blockRequestErrors = MAX_REQUEST_ERRORS ∨
      w.cacheRfqBalanceErrors = MAX_CACHE_RFQ_BALANCES_ERRORS
  blocks : (savedBlocks os).Pairwise (· < ·)
  last : ∀ b ∈ savedBlocks os, (b : ℤ) ≤ w.lastBlockSeen
  current : ∀ b, newBlock? w.phase = some b → w.lastBlockSeen < b

/-- A worker that goes on with a pass for a block. -/
structure Proceeds (w w' : Worker) (newBlock : ℕ) : Prop where
  requests : w'.blockRequestErrors = w.blockRequestErrors
  passes : w'.cacheRfqBalanceErrors = w.cacheRfqBalanceErrors
  last : w'.lastBlockSeen = w.lastBlockSeen
  current : newBlock? w'.phase = some newBlock

section Worker

variable {w w' : Worker} {newBlock now : ℕ} {os : List Outcome}

theorem not_isBetweenPasses_of_newBlock {phase : Phase} (h : newBlock? phase = some newBlock) :
    isBetweenPasses phase = false := by
  cases phase with
  | requestingBlock => cases h
  | exited message => cases h
  | _ => rfl

theorem collect_proceeds (w : Worker) (newBlock updateTime : ℕ)
    (balancesCallInput : BalancesCallInput) (balances : List (Option (List ℕ))) :
    Proceeds w (w.collect newBlock updateTime balancesCallInput balances) newBlock := by
  unfold Worker.collect
  split
  · exact ⟨rfl, rfl, rfl, rfl⟩
  · exact ⟨rfl, rfl, rfl, rfl⟩

theorem checkBalances_proceeds (w : Worker) (now newBlock : ℕ) (makerTokens : List MakerToken) :
    Proceeds w (w.checkBalances now newBlock makerTokens) newBlock :=
  collect_proceeds ..

theorem cacheRfqBalances_proceeds (w : Worker) (now newBlock : ℕ) :
    Proceeds w (w.cacheRfqBalances now newBlock) newBlock := by
  unfold Worker.cacheRfqBalances
  split
  split
  · obtain ⟨h₁, h₂, h₃, h₄⟩ := checkBalances_proceeds _ now newBlock _
    exact ⟨h₁, h₂, h₃, h₄⟩
  · exact ⟨rfl, rfl, rfl, rfl⟩

theorem isBetweenPasses_top (w : Worker) : isBetweenPasses w.top.phase = true := by
  rcases Worker.top_betweenPasses w with h | ⟨message, h⟩
  · rw [h]
    rfl
  · rw [h]
    rfl

/-- Going on with a pass ends nothing. -/
theorem Counts.proceeds (h : Counts os w) (hw' : Proceeds w w' newBlock)
    (hlive : ¬ ∃ message, w.phase = .exited message) (hcurrent : w.lastBlockSeen < newBlock) :
    Counts os w' := by
  have hexited : ¬ ∃ message, w'.phase = .exited message := by
    rintro ⟨message, hphase⟩
    have hnew := hw'.current
    rw [hphase] at hnew
    cases hnew
  refine ⟨hw'.requests.trans h.requests, hw'.passes.trans h.passes,
    hw'.requests.trans_le h.requests_le, hw'.passes.trans_le h.passes_le, ?_, h.blocks, ?_, ?_⟩
  · rw [hw'.requests, hw'.passes, ← h.exited_iff]
    exact iff_of_false hexited hlive
  · rw [hw'.last]
    exact h.last
  · intro b hb
    rw [hw'.current] at hb
    cases hb
    rw [hw'.last]
    exact hcurrent

/-- At the top of the loop the worker exits if a counter has reached its limit. -/
theorem Counts.top {requests passes : ℕ} (hw : w' =
      Worker.top { w with blockRequestErrors := requests, cacheRfqBalanceErrors := passes })
    (hrequests : requests = os.count .requestFailed) (hpasses : passes = os.count .passFailed)
    (hrequests_le : requests ≤ MAX_REQUEST_ERRORS)
    (hpasses_le : passes ≤ MAX_CACHE_RFQ_BALANCES_ERRORS)
    (hblocks : (savedBlocks os).Pairwise (· < ·))
    (hlast : ∀ b ∈ savedBlocks os, (b : ℤ) ≤ w.lastBlockSeen) : Counts os w' := by
  subst hw
  unfold Worker.top
  dsimp only
  split
  · rename_i hlimit
    refine ⟨hrequests, hpasses, hrequests_le, hpasses_le, ?_, hblocks, hlast, nofun⟩
    exact iff_of_true ⟨_, rfl⟩ (.inl (hrequests_le.antisymm hlimit))
  · rename_i hrequest
    split
    · rename_i hlimit
      refine ⟨hrequests, hpasses, hrequests_le, hpasses_le, ?_, hblocks, hlast, nofun⟩
      exact iff_of_true ⟨_, rfl⟩ (.inr (hpasses_le.antisymm hlimit))
    · rename_i hpass
      refine ⟨hrequests, hpasses, hrequests_le, hpasses_le, ?_, hblocks, hlast, nofun⟩
      refine iff_of_false nofun ?_
      rintro (heq | heq)
      · exact hrequest heq.ge
      · exact hpass heq.ge

theorem savedBlocks_append (os os' : List Outcome) :
    savedBlocks (os ++ os') = savedBlocks os ++ savedBlocks os' := List.filterMap_append

/-- A live worker is below both limits. -/
theorem Counts.lt_of_live (h : Counts os w) (hlive : ¬ ∃ message, w.phase = .exited message) :
    w.blockRequestErrors < MAX_REQUEST_ERRORS ∧
      w.cacheRfqBalanceErrors < MAX_CACHE_RFQ_BALANCES_ERRORS := by
  rw [h.exited_iff, not_or] at hlive
  exact ⟨lt_of_le_of_ne h.requests_le hlive.1, lt_of_le_of_ne h.passes_le hlive.2⟩

/-- A pass fails. -/
theorem Counts.passFailed (h : Counts os w) (hlive : ¬ ∃ message, w.phase = .exited message)
    (hw' : ∃ cache, w' = { w with makerTokenCache := cache }.passFailed) :
    Counts (os ++ [.passFailed]) w' := by
  obtain ⟨cache, hw'⟩ := hw'
  obtain ⟨_, hlt⟩ := h.lt_of_live hlive
  refine Counts.top (w := { w with makerTokenCache := cache }) hw' ?_ ?_ h.requests_le hlt ?_ ?_
  · rw [List.count_append, h.requests]
    rfl
  · rw [List.count_append, h.passes]
    rfl
  · rw [savedBlocks_append]
    simpa [savedBlocks] using h.blocks
  · rw [savedBlocks_append]
    simpa [savedBlocks] using h.last

/-- The request for a block fails. -/
theorem Counts.requestFailed (h : Counts os w)
    (hlive : ¬ ∃ message, w.phase = .exited message) :
    Counts (os ++ [.requestFailed])
      (Worker.top { w with blockRequestErrors := w.blockRequestErrors + 1 }) := by
  obtain ⟨hlt, _⟩ := h.lt_of_live hlive
  refine Counts.top (w := w) rfl ?_ ?_ hlt h.passes_le ?_ ?_
  · rw [List.count_append, h.requests]
    rfl
  · rw [List.count_append, h.passes]
    rfl
  · rw [savedBlocks_append]
    simpa [savedBlocks] using h.blocks
  · rw [savedBlocks_append]
    simpa [savedBlocks] using h.last

/-- A pass is saved: its block is above those that were saved before. -/
theorem Counts.saved (h : Counts os w) (hlive : ¬ ∃ message, w.phase = .exited message)
    (hcurrent : w.lastBlockSeen < newBlock) (until_ : ℕ) :
    Counts (os ++ [.saved newBlock])
      { w with lastBlockSeen := newBlock, phase := .delaying until_ } := by
  have hbefore : ∀ b ∈ savedBlocks os, (b : ℤ) < newBlock :=
    fun b hb => (h.last b hb).trans_lt hcurrent
  refine ⟨?_, ?_, h.requests_le, h.passes_le, ?_, ?_, ?_, nofun⟩
  · rw [List.count_append, ← h.requests]
    rfl
  · rw [List.count_append, ← h.passes]
    rfl
  · rw [← h.exited_iff]
    exact iff_of_false nofun hlive
  · rw [savedBlocks_append, List.pairwise_append]
    refine ⟨h.blocks, List.pairwise_singleton _ _, ?_⟩
    intro a ha b hb
    rw [List.mem_singleton.mp hb]
    exact_mod_cast hbefore a ha
  · intro b hb
    rw [savedBlocks_append] at hb
    rcases List.mem_append.mp hb with hold | hnew
    · exact (hbefore b hold).le
    · rw [List.mem_singleton.mp hnew]

end Worker

/-! ## Every run -/

section Run

variable {Address : Type} [DecidableEq Address] {encodeAddress : String → Except JsError Address}

/-- Events that the worker does not wait for. -/
theorem Counts.unmoved {os : List Outcome} {s : State Address} (h : Counts os s.worker)
    {e : Event Address} (hworker : (RfqMakerBalances.step encodeAddress s e).worker = s.worker)
    (hnone : outcome encodeAddress s e = none) :
    Counts (os ++ (outcome encodeAddress s e).toList)
      (RfqMakerBalances.step encodeAddress s e).worker := by
  rw [hnone, hworker, Option.toList_none, List.append_nil]
  exact h

theorem not_exited_of_newBlock {phase : Phase} {newBlock : ℕ}
    (hcurrent : newBlock? phase = some newBlock) : ¬ ∃ message, phase = .exited message := by
  rintro ⟨message, hphase⟩
  rw [hphase] at hcurrent
  cases hcurrent

/-- A pass that goes on or fails. -/
theorem Counts.passStep {os : List Outcome} {w w' : Worker} {newBlock : ℕ} (h : Counts os w)
    (hcurrent : newBlock? w.phase = some newBlock)
    (hw' : (∃ cache, w' = { w with makerTokenCache := cache }.passFailed) ∨
      Proceeds w w' newBlock) :
    Counts (os ++ (if isBetweenPasses w'.phase then some Outcome.passFailed else none).toList)
      w' := by
  have hlive := not_exited_of_newBlock hcurrent
  rcases hw' with hfailed | hproceeds
  · obtain ⟨cache, hcache⟩ := hfailed
    have hended : isBetweenPasses w'.phase = true := by
      rw [hcache]
      exact isBetweenPasses_top _
    rw [if_pos hended]
    exact h.passFailed hlive ⟨cache, hcache⟩
  · rw [not_isBetweenPasses_of_newBlock hproceeds.current, if_neg Bool.false_ne_true,
      Option.toList_none, List.append_nil]
    exact h.proceeds hproceeds hlive (h.current newBlock hcurrent)

theorem onMakerTokens_cases {w : Worker} {newBlock call : ℕ}
    (hphase : w.phase = .readingMakerTokens newBlock call) (now : ℕ) (table : Table) (ok : Bool) :
    (∃ cache, w.onMakerTokens now table ok = { w with makerTokenCache := cache }.passFailed) ∨
      Proceeds w (w.onMakerTokens now table ok) newBlock := by
  have hcurrent : newBlock? w.phase = some newBlock := by
    rw [hphase]
    rfl
  unfold Worker.onMakerTokens
  rw [hphase]
  dsimp only
  split
  · exact .inr ⟨rfl, rfl, rfl, hcurrent⟩
  · split
    · obtain ⟨h₁, h₂, h₃, h₄⟩ := checkBalances_proceeds _ now newBlock _
      exact .inr ⟨h₁, h₂, h₃, h₄⟩
    · split
      · obtain ⟨h₁, h₂, h₃, h₄⟩ := checkBalances_proceeds _ now newBlock _
        exact .inr ⟨h₁, h₂, h₃, h₄⟩
      · exact .inl ⟨_, rfl⟩

theorem onBalances_cases {w : Worker} {newBlock updateTime : ℕ}
    {balancesCallInput : BalancesCallInput} {balances : List (Option (List ℕ))}
    (hphase : w.phase = .checkingBalances newBlock updateTime balancesCallInput balances)
    (chain : ChainState Address) (i : ℕ) (ok : Bool) :
    (∃ cache, w.onBalances encodeAddress chain i ok =
        { w with makerTokenCache := cache }.passFailed) ∨
      Proceeds w (w.onBalances encodeAddress chain i ok) newBlock := by
  have hcurrent : newBlock? w.phase = some newBlock := by
    rw [hphase]
    rfl
  unfold Worker.onBalances
  rw [hphase]
  dsimp only
  split
  · split
    · exact .inr (collect_proceeds ..)
    · exact .inl ⟨w.makerTokenCache, rfl⟩
  · exact .inr ⟨rfl, rfl, rfl, hcurrent⟩

/-- The counts under one step. -/
theorem Counts.step {os : List Outcome} {s : State Address} (h : Counts os s.worker)
    (e : Event Address) (he : e ≠ .restart) :
    Counts (os ++ (outcome encodeAddress s e).toList)
      (RfqMakerBalances.step encodeAddress s e).worker := by
  cases e with
  | clock ms => exact h.unmoved rfl (by unfold outcome; cases s.worker.phase <;> rfl)
  | chain chain => exact h.unmoved rfl (by unfold outcome; cases s.worker.phase <;> rfl)
  | validate quotes =>
    refine h.unmoved (worker_step_validate _ s quotes) ?_
    unfold outcome
    cases s.worker.phase <;> rfl
  | compute n =>
    refine h.unmoved (worker_step_compute _ s n) ?_
    unfold outcome
    cases s.worker.phase <;> rfl
  | insert n ok =>
    refine h.unmoved (worker_step_insert _ s n ok) ?_
    unfold outcome
    cases s.worker.phase <;> rfl
  | blockNumber newBlock =>
    cases hphase : s.worker.phase with
    | requestingBlock =>
      have hlive : ¬ ∃ message, s.worker.phase = .exited message := by
        rintro ⟨message, hexited⟩
        rw [hphase] at hexited
        cases hexited
      cases newBlock with
      | none =>
        have hnext : (RfqMakerBalances.step encodeAddress s (.blockNumber none)).worker =
            Worker.top { s.worker with blockRequestErrors := s.worker.blockRequestErrors + 1 } := by
          simp only [RfqMakerBalances.step, Worker.onBlockNumber, hphase]
        have houtcome : outcome encodeAddress s (.blockNumber none) = some .requestFailed := by
          unfold outcome
          rw [hphase]
        rw [houtcome, hnext]
        exact h.requestFailed hlive
      | some newBlock =>
        have houtcome : outcome encodeAddress s (.blockNumber (some newBlock)) = none := by
          unfold outcome
          rw [hphase]
        rw [houtcome, Option.toList_none, List.append_nil]
        simp only [RfqMakerBalances.step, Worker.onBlockNumber, hphase]
        split
        · rename_i hnewer
          exact h.proceeds (cacheRfqBalances_proceeds s.worker s.now newBlock) hlive hnewer
        · refine ⟨h.requests, h.passes, h.requests_le, h.passes_le, ?_, h.blocks, h.last, ?_⟩
          · rw [← h.exited_iff]
            refine iff_of_false ?_ hlive
            rintro ⟨message, hexited⟩
            cases hexited
          · intro b hb
            cases hb
    | _ =>
      refine h.unmoved ?_ ?_
      · simp only [RfqMakerBalances.step, Worker.onBlockNumber, hphase]
      · unfold outcome
        rw [hphase]
  | makerTokens ok =>
    cases hphase : s.worker.phase with
    | readingMakerTokens newBlock call =>
      have hcurrent : newBlock? s.worker.phase = some newBlock := by
        rw [hphase]
        rfl
      have houtcome : outcome encodeAddress s (.makerTokens ok) =
          if isBetweenPasses (s.worker.onMakerTokens s.now s.table ok).phase then
            some .passFailed else none := by
        unfold outcome
        rw [hphase]
        rfl
      rw [houtcome]
      exact h.passStep hcurrent (onMakerTokens_cases hphase s.now s.table ok)
    | _ =>
      refine h.unmoved ?_ ?_
      · simp only [RfqMakerBalances.step, Worker.onMakerTokens, hphase]
      · unfold outcome
        rw [hphase]
  | balances call ok =>
    cases hphase : s.worker.phase with
    | checkingBalances newBlock updateTime balancesCallInput balances =>
      have hcurrent : newBlock? s.worker.phase = some newBlock := by
        rw [hphase]
        rfl
      have houtcome : outcome encodeAddress s (.balances call ok) =
          if isBetweenPasses (s.worker.onBalances encodeAddress s.chain call ok).phase then
            some .passFailed else none := by
        unfold outcome
        rw [hphase]
        rfl
      rw [houtcome]
      exact h.passStep hcurrent (onBalances_cases hphase s.chain call ok)
    | _ =>
      refine h.unmoved ?_ ?_
      · simp only [RfqMakerBalances.step, Worker.onBalances, hphase]
      · unfold outcome
        rw [hphase]
  | saved ok =>
    cases hphase : s.worker.phase with
    | saving newBlock toSave =>
      have hcurrent : newBlock? s.worker.phase = some newBlock := by
        rw [hphase]
        rfl
      have hlive := not_exited_of_newBlock hcurrent
      have houtcome : outcome encodeAddress s (.saved ok) =
          if isBetweenPasses (s.worker.onSaved s.now s.table ok).1.phase then
            some .passFailed else some (.saved newBlock) := by
        unfold outcome
        rw [hphase]
        rfl
      have hnext : (RfqMakerBalances.step encodeAddress s (.saved ok)).worker =
          (s.worker.onSaved s.now s.table ok).1 := rfl
      rw [houtcome, hnext]
      simp only [Worker.onSaved, hphase]
      split
      · exact h.saved hlive (h.current newBlock hcurrent) _
      · have hended : isBetweenPasses s.worker.passFailed.phase = true := isBetweenPasses_top _
        dsimp only
        rw [if_pos hended]
        exact h.passFailed hlive ⟨s.worker.makerTokenCache, rfl⟩
    | _ =>
      refine h.unmoved ?_ ?_
      · simp only [RfqMakerBalances.step, Worker.onSaved, hphase]
      · unfold outcome
        rw [hphase]
  | delayed =>
    have houtcome : outcome encodeAddress s .delayed = none := by
      unfold outcome
      cases s.worker.phase <;> rfl
    rw [houtcome, Option.toList_none, List.append_nil]
    simp only [RfqMakerBalances.step, Worker.onDelayed]
    split
    · split
      · exact Counts.top (w := s.worker) rfl h.requests h.passes h.requests_le h.passes_le
          h.blocks h.last
      · exact h
    · exact h
  | restart => exact absurd rfl he

theorem counts_initial : Counts [] Worker.initial :=
  Counts.top (w := ⟨.requestingBlock, 0, 0, -1, ⟨0, fun _ => none, .empty⟩⟩) rfl rfl rfl
    (Nat.zero_le _) (Nat.zero_le _) .nil nofun

/-- As long as the worker is not started again: the blocks for which it saves have larger and larger
numbers, and it has exited exactly if ten requests for a block or ten passes have failed, no matter
how many have succeeded in between; more do not fail. -/
theorem worker_outcomes (now : ℕ) (chain : ChainState Address) (es : List (Event Address))
    (hlives : ∀ e ∈ es, e ≠ .restart) :
    (savedBlocks (outcomes encodeAddress (initial now chain) es)).Pairwise (· < ·) ∧
      (outcomes encodeAddress (initial now chain) es).count .requestFailed ≤ MAX_REQUEST_ERRORS ∧
      (outcomes encodeAddress (initial now chain) es).count .passFailed ≤
        MAX_CACHE_RFQ_BALANCES_ERRORS ∧
      ((∃ message, (after encodeAddress now chain es).worker.phase = .exited message) ↔
        (outcomes encodeAddress (initial now chain) es).count .requestFailed = MAX_REQUEST_ERRORS ∨
          (outcomes encodeAddress (initial now chain) es).count .passFailed =
            MAX_CACHE_RFQ_BALANCES_ERRORS) := by
  have halong : AlongRun (RfqMakerBalances.step encodeAddress) (fun _ e => e ≠ .restart)
      (initial now chain) es := by
    rw [alongRun_iff_split]
    rintro past e future rfl
    exact hlives e (by simp)
  have hcounts : Counts ([] ++ outcomes encodeAddress (initial now chain) es)
      (after encodeAddress now chain es).worker :=
    observed_invariant (I := fun os s => Counts os s.worker)
      (fun _ _ e hs he => hs.step e he) counts_initial halong
  rw [List.nil_append] at hcounts
  obtain ⟨hrequests, hpasses, hrequests_le, hpasses_le, hexited, hblocks, _, _⟩ := hcounts
  rw [hrequests] at hrequests_le hexited
  rw [hpasses] at hpasses_le hexited
  exact ⟨hblocks, hrequests_le, hpasses_le, hexited⟩

end Run

/-! ### A block that is saved after a failure -/

/-- The first request for a block fails, and the block of the second is saved. -/
def failedOnce : List (Event ℕ) :=
  [.blockNumber none, .blockNumber (some 7), .makerTokens true, .saved true]

theorem failedOnce_outcomes :
    (savedBlocks (outcomes encodeHex (initial 1000 fiftyEach) failedOnce)).Pairwise (· < ·) ∧
      (outcomes encodeHex (initial 1000 fiftyEach) failedOnce).count .requestFailed ≤
        MAX_REQUEST_ERRORS ∧
      (outcomes encodeHex (initial 1000 fiftyEach) failedOnce).count .passFailed ≤
        MAX_CACHE_RFQ_BALANCES_ERRORS ∧
      ((∃ message, (after encodeHex 1000 fiftyEach failedOnce).worker.phase = .exited message) ↔
        (outcomes encodeHex (initial 1000 fiftyEach) failedOnce).count .requestFailed =
            MAX_REQUEST_ERRORS ∨
          (outcomes encodeHex (initial 1000 fiftyEach) failedOnce).count .passFailed =
            MAX_CACHE_RFQ_BALANCES_ERRORS) :=
  worker_outcomes 1000 fiftyEach failedOnce (by simp [failedOnce])

example : outcomes encodeHex (initial 1000 fiftyEach) failedOnce = [.requestFailed, .saved 7] := by
  decide +kernel

end ZeroExApi.RfqWorkerLoop
