/-
# ZeroExApi.UniswapV3Sampler — the best pool path for each sample

`UniswapV3Common.sol` finds the two best pools of each hop and combines them to candidate pool
paths; `UniswapV3Sampler.sol` quotes all samples along each candidate and keeps, for every sample,
the best amount with its path and its gas estimate.

The multi-quoter answers by reverting: with its result, or for another reason.  What it answers is
arbitrary, except that a result has an entry for each amount that was asked for, as one of the
repository's own multi-quoter has (`multiQuoterOf`).  A zero in a result means that there is no
quote, and ends it: the amounts after it are not looked at.  So the best is taken over the quotes
before the first zero of each candidate (`sampleSells_best`, `sampleBuys_best`).

A pass over the candidates keeps the best by `ZeroExApi.Lib.Selection`, and the three arrays of a
sampler are at each place what the quote kept there says.
-/

import Mathlib.Data.List.TakeWhile
import Mathlib.Data.Prod.Lex
import ZeroExApi.Lib.Fallible
import ZeroExApi.Lib.Selection
import ZeroExApi.MultiQuoter

namespace ZeroExApi.UniswapV3Sampler

open ZeroExApi.Lib ZeroExApi.Lib.Fallible

abbrev Address := ℕ

/-- An item of a packed path: tokens with the fees of the pools between them. -/
inductive PathItem where
  | token (address : Address)
  | fee (value : ℕ)
  deriving DecidableEq

abbrev UniswapPath := List PathItem

/-- Why a call reverts. -/
inductive Revert where
  | reason (text : String)
  | outOfBounds
  deriving DecidableEq

/-- What a caller finds in the data of a revert: the result of the multi-quoter, by its selector, or
something else. -/
inductive RevertReason where
  | result (amounts gasEstimates : List ℕ)
  | other

/-- How a call that is tried ends. -/
inductive CallOutcome where
  | returned
  | reverted (reason : RevertReason)

/-- An outcome whose result, if it has one, has an entry for each of `n` amounts. -/
def CallOutcome.Answers (n : ℕ) (outcome : CallOutcome) : Prop :=
  ∀ amounts gasEstimates, outcome = .reverted (.result amounts gasEstimates) →
    amounts.length = n ∧ gasEstimates.length = n

/-- `IUniswapV3MultiQuoter`; the first argument of `quoteExactMultiInput` is the gas it is given,
where that is limited. -/
structure IUniswapV3MultiQuoter where
  quoteExactMultiInput : Option ℕ → UniswapPath → List ℕ → CallOutcome
  quoteExactMultiOutput : UniswapPath → List ℕ → CallOutcome
  input_answers : ∀ gas path amounts,
    (quoteExactMultiInput gas path amounts).Answers amounts.length
  output_answers : ∀ path amounts, (quoteExactMultiOutput path amounts).Answers amounts.length

/-- The contracts a sampler calls: the factory, the pools and their tokens, and the multi-quoter.
There is no code at the zero address. -/
structure Chain where
  getPool : Address → Address → ℕ → Address
  codeSize : Address → ℕ
  codeSize_zero : codeSize 0 = 0
  token0 : Address → Address
  token1 : Address → Address
  fee : Address → ℕ
  balanceOf : Address → Address → ℕ
  multiQuoter : IUniswapV3MultiQuoter

/-! ## `UniswapV3Common.sol` -/

section Common

variable (chain : Chain)

/-- `POOL_FILTERING_GAS_LIMIT`. -/
def POOL_FILTERING_GAS_LIMIT : ℕ := 450000

/-- The loop of `toUniswapPath`. -/
def packPath : List Address → List Address → UniswapPath
  | token :: tokenPath, pool :: poolPath =>
    .token token :: .fee (chain.fee pool) :: packPath tokenPath poolPath
  | token :: _, [] => [.token token]
  | [], _ => []

/-- `toUniswapPath`. -/
def toUniswapPath (tokenPath poolPath : List Address) : Except Revert UniswapPath :=
  if 2 ≤ tokenPath.length ∧ tokenPath.length = poolPath.length + 1 then
    .ok (packPath chain tokenPath poolPath)
  else .error (.reason "UniswapV3Common/invalid path lengths")

/-- `isValidPool`. -/
def isValidPool (pool : Address) : Bool :=
  if chain.codeSize pool = 0 then false
  else if chain.balanceOf (chain.token0 pool) pool = 0 then false
  else if chain.balanceOf (chain.token1 pool) pool = 0 then false
  else true

/-- `isValidPoolPath`. -/
def isValidPoolPath (poolPath : List Address) : Bool := poolPath.all fun pool => pool != 0

/-- `catchMultiSwapResult`. -/
def catchMultiSwapResult : RevertReason → Option (List ℕ × List ℕ)
  | .result amounts gasEstimates => some (amounts, gasEstimates)
  | .other => none

/-- What the `try` of a quote leads to: the arrays of the result, where there is one. -/
def caughtResult : CallOutcome → Option (List ℕ × List ℕ)
  | .returned => none
  | .reverted reason => catchMultiSwapResult reason

/-- `topPools` and `topOutputAmounts`. -/
structure TopPools where
  topPools : Address × Address
  topOutputAmounts : ℕ × ℕ

/-- The loop body of `getTopTwoPools`. -/
def considerPool (inputToken outputToken : Address) (inputAmount : ℕ) (top : TopPools) (fee : ℕ) :
    Except Revert TopPools :=
  let pool := chain.getPool inputToken outputToken fee
  if !isValidPool chain pool then .ok top
  else do
    let uniswapPath ← toUniswapPath chain [inputToken, outputToken] [pool]
    match caughtResult (chain.multiQuoter.quoteExactMultiInput (some POOL_FILTERING_GAS_LIMIT)
        uniswapPath [inputAmount]) with
    | none => return top
    | some (outputAmounts, _) =>
      match outputAmounts[0]? with
      | none => .error .outOfBounds
      | some outputAmount =>
        if outputAmount > top.topOutputAmounts.1 then
          return { topPools := (pool, top.topPools.1)
                   topOutputAmounts := (outputAmount, top.topOutputAmounts.1) }
        else if outputAmount > top.topOutputAmounts.2 then
          return { topPools := (top.topPools.1, pool)
                   topOutputAmounts := (top.topOutputAmounts.1, outputAmount) }
        else return top

/-- `validPoolFees`. -/
def validPoolFees : List ℕ := [100, 500, 3000, 10000]

/-- `getTopTwoPools`. -/
def getTopTwoPools (inputToken outputToken : Address) (inputAmount : ℕ) : Except Revert TopPools :=
  validPoolFees.foldlM (considerPool chain inputToken outputToken inputAmount)
    { topPools := (0, 0), topOutputAmounts := (0, 0) }

/-- `getPoolPaths`, of one hop and of two. -/
def getPoolPaths (path : List Address) (inputAmount : ℕ) : Except Revert (List (List Address)) :=
  match path with
  | [token0, token1] => do
    let top ← getTopTwoPools chain token0 token1 inputAmount
    return [[top.topPools.1], [top.topPools.2]]
  | [token0, token1, token2] => do
    let first ← getTopTwoPools chain token0 token1 inputAmount
    let second ← getTopTwoPools chain token1 token2 first.topOutputAmounts.1
    return [[first.topPools.1, second.topPools.1], [first.topPools.1, second.topPools.2],
      [first.topPools.2, second.topPools.1], [first.topPools.2, second.topPools.2]]
  | _ => .error (.reason "UniswapV3Sampler/unsupported token path length")

end Common

/-! ## `UniswapV3Sampler.sol` -/

/-- The arrays a sampler returns. -/
structure Samples where
  uniswapPaths : List UniswapPath
  uniswapGasUsed : List ℕ
  amounts : List ℕ
  deriving DecidableEq

/-- Arrays of zeros and empty paths. -/
def Samples.zeros (n : ℕ) : Samples where
  uniswapPaths := List.replicate n []
  uniswapGasUsed := List.replicate n 0
  amounts := List.replicate n 0

/-- `array[i]`. -/
def read {α : Type} (array : List α) (i : ℕ) : Except Revert α :=
  match array[i]? with
  | some value => .ok value
  | none => .error .outOfBounds

section Sampler

variable (chain : Chain)

/-- The loop over one result, from sample `j` on.  `wins kept new` is the test of the sampler. -/
def keepBest (wins : ℕ → ℕ → Bool) (uniswapPath : Except Revert UniswapPath)
    (gasEstimates : List ℕ) : List ℕ → ℕ → Samples → Except Revert Samples
  | [], _, samples => .ok samples
  | amount :: amounts, j, samples => do
    if amount = 0 then return samples
    else
      let kept ← read samples.amounts j
      if wins kept amount then do
        let path ← uniswapPath
        let gas ← read gasEstimates j
        let samples : Samples :=
          { uniswapPaths := samples.uniswapPaths.set j path
            uniswapGasUsed := samples.uniswapGasUsed.set j gas
            amounts := samples.amounts.set j amount }
        keepBest wins uniswapPath gasEstimates amounts (j + 1) samples
      else if kept = amount then do
        let gasUsed ← read samples.uniswapGasUsed j
        let gas ← read gasEstimates j
        if gasUsed > gas then do
          let path ← uniswapPath
          let samples : Samples :=
            { samples with
              uniswapPaths := samples.uniswapPaths.set j path
              uniswapGasUsed := samples.uniswapGasUsed.set j gas }
          keepBest wins uniswapPath gasEstimates amounts (j + 1) samples
        else keepBest wins uniswapPath gasEstimates amounts (j + 1) samples
      else keepBest wins uniswapPath gasEstimates amounts (j + 1) samples

/-- The loop body over the pool paths: the samples are quoted along `quotedPath` and the path that
is kept is `keptPath`. -/
def samplePoolPath (wins : ℕ → ℕ → Bool) (quote : UniswapPath → List ℕ → CallOutcome)
    (quotedPath keptPath : List Address → Except Revert UniswapPath) (amounts : List ℕ)
    (samples : Samples) (poolPath : List Address) : Except Revert Samples :=
  if !isValidPoolPath poolPath then .ok samples
  else do
    let uniswapPath ← quotedPath poolPath
    match caughtResult (quote uniswapPath amounts) with
    | none => return samples
    | some (quoted, gasEstimates) =>
      keepBest wins (keptPath poolPath) gasEstimates quoted 0 samples

/-- `sampleSellsFromUniswapV3`. -/
def sampleSellsFromUniswapV3 (path : List Address) (takerTokenAmounts : List ℕ) :
    Except Revert Samples := do
  let lastAmount ← read takerTokenAmounts (takerTokenAmounts.length - 1)
  let poolPaths ← getPoolPaths chain path lastAmount
  poolPaths.foldlM
    (samplePoolPath (fun kept amount => kept < amount)
      (chain.multiQuoter.quoteExactMultiInput none)
      (fun poolPath => toUniswapPath chain path poolPath)
      (fun poolPath => toUniswapPath chain path poolPath) takerTokenAmounts)
    (Samples.zeros takerTokenAmounts.length)

/-- `sampleBuysFromUniswapV3`: quotes go along the reversed path, and the path is kept in order. -/
def sampleBuysFromUniswapV3 (path : List Address) (makerTokenAmounts : List ℕ) :
    Except Revert Samples := do
  let reversedPath := path.reverse
  let lastAmount ← read makerTokenAmounts (makerTokenAmounts.length - 1)
  let poolPaths ← getPoolPaths chain reversedPath lastAmount
  poolPaths.foldlM
    (samplePoolPath (fun kept amount => kept == 0 || kept > amount)
      chain.multiQuoter.quoteExactMultiOutput
      (fun poolPath => toUniswapPath chain reversedPath poolPath)
      (fun poolPath => toUniswapPath chain path poolPath.reverse) makerTokenAmounts)
    (Samples.zeros makerTokenAmounts.length)

end Sampler

/-! ## Candidates -/

section Candidates

variable (chain : Chain)

/-- A pool of a hop with its quoted output, where it is valid and has one. -/
def poolQuote (inputToken outputToken : Address) (inputAmount fee : ℕ) : Option (Address × ℕ) :=
  let pool := chain.getPool inputToken outputToken fee
  if isValidPool chain pool then
    (caughtResult (chain.multiQuoter.quoteExactMultiInput (some POOL_FILTERING_GAS_LIMIT)
      (packPath chain [inputToken, outputToken] [pool]) [inputAmount])).bind fun result =>
        if result.1.headD 0 = 0 then none else some (pool, result.1.headD 0)
  else none

/-- The pools of a hop that quote an output. -/
def hopQuotes (inputToken outputToken : Address) (inputAmount : ℕ) : List (Address × ℕ) :=
  validPoolFees.filterMap (poolQuote chain inputToken outputToken inputAmount)

/-- The two pools of a hop with the largest quoted outputs, or fewer. -/
def topTwo (inputToken outputToken : Address) (inputAmount : ℕ) :
    Option (Address × ℕ) × Option (Address × ℕ) :=
  largestTwo Prod.snd (hopQuotes chain inputToken outputToken inputAmount)

/-- The pools of a pair, as a list. -/
def poolsOf (two : Option (Address × ℕ) × Option (Address × ℕ)) : List Address :=
  (two.1.toList ++ two.2.toList).map Prod.fst

/-- The candidates: all combinations of the two pools of each hop.  The second hop is quoted for the
largest output of the first. -/
def candidates (path : List Address) (inputAmount : ℕ) : List (List Address) :=
  match path with
  | [token0, token1] => (poolsOf (topTwo chain token0 token1 inputAmount)).map fun pool => [pool]
  | [token0, token1, token2] =>
    let first := topTwo chain token0 token1 inputAmount
    let second := topTwo chain token1 token2 ((first.1.map Prod.snd).getD 0)
    (poolsOf first).flatMap fun pool => (poolsOf second).map fun pool' => [pool, pool']
  | _ => []

/-- The two arrays of `getTopTwoPools`, zero where there is no pool. -/
def TopPools.ofTwo (two : Option (Address × ℕ) × Option (Address × ℕ)) : TopPools where
  topPools := ((two.1.map Prod.fst).getD 0, (two.2.map Prod.fst).getD 0)
  topOutputAmounts := ((two.1.map Prod.snd).getD 0, (two.2.map Prod.snd).getD 0)

variable {chain}

/-- A quoted pool has an address and an output. -/
theorem ne_zero_of_poolQuote {inputToken outputToken : Address} {inputAmount fee : ℕ}
    {q : Address × ℕ} (h : poolQuote chain inputToken outputToken inputAmount fee = some q) :
    q.1 ≠ 0 ∧ q.2 ≠ 0 := by
  unfold poolQuote at h
  dsimp only at h
  split at h
  · rename_i hvalid
    obtain ⟨result, -, h⟩ := Option.bind_eq_some_iff.mp h
    split at h
    · cases h
    · rename_i hne
      cases h
      refine ⟨?_, hne⟩
      intro hzero
      have hpool : chain.getPool inputToken outputToken fee = 0 := hzero
      rw [isValidPool, hpool, if_pos chain.codeSize_zero] at hvalid
      cases hvalid
  · cases h

theorem ne_zero_of_hopQuotes {inputToken outputToken : Address} {inputAmount : ℕ}
    {q : Address × ℕ} (h : q ∈ hopQuotes chain inputToken outputToken inputAmount) :
    q.1 ≠ 0 ∧ q.2 ≠ 0 := by
  obtain ⟨fee, -, hq⟩ := List.mem_filterMap.mp h
  exact ne_zero_of_poolQuote hq

/-- What the pass does to the two that are kept, where their outputs are not zero: the zeros of the
arrays lose against any output. -/
theorem ofTwo_insertTwo (two : Option (Address × ℕ) × Option (Address × ℕ)) (q : Address × ℕ)
    (hfirst : two.1 = none → two.2 = none) (hq : q.2 ≠ 0) :
    TopPools.ofTwo (insertTwo Prod.snd two q) =
      if q.2 > (TopPools.ofTwo two).topOutputAmounts.1 then
        { topPools := (q.1, (TopPools.ofTwo two).topPools.1)
          topOutputAmounts := (q.2, (TopPools.ofTwo two).topOutputAmounts.1) }
      else if q.2 > (TopPools.ofTwo two).topOutputAmounts.2 then
        { topPools := ((TopPools.ofTwo two).topPools.1, q.1)
          topOutputAmounts := ((TopPools.ofTwo two).topOutputAmounts.1, q.2) }
      else TopPools.ofTwo two := by
  obtain ⟨first, second⟩ := two
  have hpos : 0 < q.2 := Nat.pos_of_ne_zero hq
  cases first with
  | none =>
    obtain rfl : second = none := hfirst rfl
    simp [insertTwo, TopPools.ofTwo, hpos]
  | some c =>
    by_cases hlt : c.2 < q.2
    · simp [insertTwo, TopPools.ofTwo, hlt]
    · cases second with
      | none => simp [insertTwo, TopPools.ofTwo, hlt, better, hpos]
      | some d =>
        by_cases hlt' : d.2 < q.2
        · simp [insertTwo, TopPools.ofTwo, hlt, better, hlt']
        · simp [insertTwo, TopPools.ofTwo, hlt, better, hlt']

theorem toUniswapPath_eq (chain : Chain) {tokenPath poolPath : List Address}
    (h : 2 ≤ tokenPath.length) (hlength : tokenPath.length = poolPath.length + 1) :
    toUniswapPath chain tokenPath poolPath = .ok (packPath chain tokenPath poolPath) :=
  if_pos ⟨h, hlength⟩

theorem CallOutcome.Answers.lengths {n : ℕ} {outcome : CallOutcome} (h : outcome.Answers n)
    {amounts gasEstimates : List ℕ}
    (hresult : caughtResult outcome = some (amounts, gasEstimates)) :
    amounts.length = n ∧ gasEstimates.length = n := by
  cases outcome with
  | returned => cases hresult
  | reverted reason =>
    cases reason with
    | other => cases hresult
    | result amounts' gasEstimates' =>
      cases Option.some.inj hresult
      exact h amounts gasEstimates rfl

/-- One more fee: its pool joins those that were considered, if it quotes an output. -/
theorem considerPool_spec {inputToken outputToken : Address} {inputAmount fee : ℕ}
    {qs : List (Address × ℕ)} :
    considerPool chain inputToken outputToken inputAmount
        (TopPools.ofTwo (largestTwo Prod.snd qs)) fee =
      .ok (TopPools.ofTwo (largestTwo Prod.snd
        (qs ++ (poolQuote chain inputToken outputToken inputAmount fee).toList))) := by
  unfold considerPool poolQuote
  dsimp only
  split
  · rename_i hinvalid
    have hvalid : isValidPool chain (chain.getPool inputToken outputToken fee) = false := by
      simpa using hinvalid
    simp [hvalid]
  · rename_i hvalid
    rw [if_pos (by simpa using hvalid), toUniswapPath_eq chain (by simp) (by simp), ok_bind]
    cases hresult : caughtResult (chain.multiQuoter.quoteExactMultiInput
        (some POOL_FILTERING_GAS_LIMIT)
        (packPath chain [inputToken, outputToken] [chain.getPool inputToken outputToken fee])
        [inputAmount]) with
    | none => simp [pure, Except.pure]
    | some result =>
      obtain ⟨outputAmounts, gasEstimates⟩ := result
      obtain ⟨hlength, -⟩ := (chain.multiQuoter.input_answers _ _ _).lengths hresult
      -- one amount was asked for, so there is one output
      obtain ⟨outputAmount, rfl⟩ := List.length_eq_one_iff.mp hlength
      by_cases hzero : outputAmount = 0
      · -- an output of zero is larger than nothing that is kept
        simp [hzero, pure, Except.pure]
      · have hinsert := ofTwo_insertTwo (largestTwo Prod.snd qs)
          (chain.getPool inputToken outputToken fee, outputAmount) largestTwo_snd_eq_none hzero
        simp only [Option.bind_some, List.headD_cons, hzero, if_false, Option.toList_some,
          largestTwo_concat, hinsert, List.getElem?_cons_zero]
        split
        · rfl
        · split
          · rfl
          · rfl

theorem foldlM_considerPool {inputToken outputToken : Address} {inputAmount : ℕ}
    (fees : List ℕ) (qs : List (Address × ℕ)) :
    fees.foldlM (considerPool chain inputToken outputToken inputAmount)
        (TopPools.ofTwo (largestTwo Prod.snd qs)) =
      .ok (TopPools.ofTwo (largestTwo Prod.snd
        (qs ++ fees.filterMap (poolQuote chain inputToken outputToken inputAmount)))) := by
  induction fees generalizing qs with
  | nil => simp [pure, Except.pure]
  | cons fee fees ih =>
    rw [List.foldlM_cons, considerPool_spec, ok_bind, ih]
    cases hquote : poolQuote chain inputToken outputToken inputAmount fee with
    | none => simp [hquote]
    | some q => simp [hquote]

/-- The arrays of `getTopTwoPools` hold the two pools with the largest quoted outputs. -/
theorem getTopTwoPools_eq (chain : Chain) (inputToken outputToken : Address) (inputAmount : ℕ) :
    getTopTwoPools chain inputToken outputToken inputAmount =
      .ok (TopPools.ofTwo (topTwo chain inputToken outputToken inputAmount)) :=
  foldlM_considerPool validPoolFees []

/-- The pools of a hop that have an address are those there are. -/
theorem filter_topPools (chain : Chain) (inputToken outputToken : Address) (inputAmount : ℕ) :
    let top := TopPools.ofTwo (topTwo chain inputToken outputToken inputAmount)
    [top.topPools.1, top.topPools.2].filter (fun pool => pool != 0) =
      poolsOf (topTwo chain inputToken outputToken inputAmount) := by
  have hmem : ∀ c, (topTwo chain inputToken outputToken inputAmount).1 = some c ∨
      (topTwo chain inputToken outputToken inputAmount).2 = some c → c.1 ≠ 0 := by
    intro c hc
    exact (ne_zero_of_hopQuotes (mem_of_largestTwo hc)).1
  have hnone : (topTwo chain inputToken outputToken inputAmount).1 = none →
      (topTwo chain inputToken outputToken inputAmount).2 = none := largestTwo_snd_eq_none
  -- only that their addresses are not zero matters from here
  generalize topTwo chain inputToken outputToken inputAmount = two at hmem hnone
  obtain ⟨first, second⟩ := two
  cases first with
  | none =>
    obtain rfl : second = none := hnone rfl
    rfl
  | some c =>
    have hc : c.1 ≠ 0 := hmem c (Or.inl rfl)
    cases second with
    | none => simp [TopPools.ofTwo, poolsOf, hc]
    | some d =>
      have hd : d.1 ≠ 0 := hmem d (Or.inr rfl)
      simp [TopPools.ofTwo, poolsOf, hc, hd]

theorem filter_valid_singletons (pools : List Address) :
    (pools.map fun pool => [pool]).filter isValidPoolPath =
      (pools.filter fun pool => pool != 0).map fun pool => [pool] := by
  rw [List.filter_map]
  congr 2
  funext pool
  simp [isValidPoolPath]

theorem filter_valid_pairs (pools pools' : List Address) :
    (pools.flatMap fun pool => pools'.map fun pool' => [pool, pool']).filter isValidPoolPath =
      (pools.filter fun pool => pool != 0).flatMap fun pool =>
        (pools'.filter fun pool' => pool' != 0).map fun pool' => [pool, pool'] := by
  induction pools with
  | nil => rfl
  | cons pool pools ih =>
    -- no pair with the zero address is left
    by_cases hpool : pool = 0
    · have hnone : (pools'.map fun pool' => [pool, pool']).filter isValidPoolPath = [] := by
        simp [List.filter_map, isValidPoolPath, hpool, Function.comp_def]
      rw [List.flatMap_cons, List.filter_append, hnone, ih]
      simp [hpool]
    · have hne : (pool != 0) = true := bne_iff_ne.mpr hpool
      have hsome : (pools'.map fun pool' => [pool, pool']).filter isValidPoolPath =
          (pools'.filter fun pool' => pool' != 0).map fun pool' => [pool, pool'] := by
        simp [List.filter_map, isValidPoolPath, hne, Function.comp_def]
      rw [List.flatMap_cons, List.filter_append, hsome, ih]
      simp [hpool]

/-- The pool paths of a token path of two or three tokens: without those that have a zero address
they are the candidates. -/
theorem getPoolPaths_spec (chain : Chain) {path : List Address} (inputAmount : ℕ)
    (hpath : path.length = 2 ∨ path.length = 3) :
    ∃ poolPaths, getPoolPaths chain path inputAmount = .ok poolPaths ∧
      poolPaths.filter isValidPoolPath = candidates chain path inputAmount ∧
      ∀ poolPath ∈ poolPaths, path.length = poolPath.length + 1 := by
  rcases hpath with htwo | hthree
  · obtain ⟨token0, token1, rfl⟩ := List.length_eq_two.mp htwo
    refine ⟨_, by simp only [getPoolPaths, getTopTwoPools_eq, ok_bind]; rfl, ?_, ?_⟩
    · exact (filter_valid_singletons [_, _]).trans
        (congrArg (List.map fun pool => [pool]) (filter_topPools chain token0 token1 inputAmount))
    · simp
  · obtain ⟨token0, token1, token2, rfl⟩ := List.length_eq_three.mp hthree
    refine ⟨_, by simp only [getPoolPaths, getTopTwoPools_eq, ok_bind]; rfl, ?_, ?_⟩
    · have hpairs := filter_valid_pairs
        [(TopPools.ofTwo (topTwo chain token0 token1 inputAmount)).topPools.1,
          (TopPools.ofTwo (topTwo chain token0 token1 inputAmount)).topPools.2]
        [(TopPools.ofTwo (topTwo chain token1 token2
            (TopPools.ofTwo
              (topTwo chain token0 token1 inputAmount)).topOutputAmounts.1)).topPools.1,
          (TopPools.ofTwo (topTwo chain token1 token2
            (TopPools.ofTwo
              (topTwo chain token0 token1 inputAmount)).topOutputAmounts.1)).topPools.2]
      rw [filter_topPools, filter_topPools] at hpairs
      exact hpairs
    · simp

end Candidates

/-! ## Quotes, and what the arrays hold -/

/-- A quote for a sample: the path that is reported, its gas estimate and the amount. -/
structure Quote where
  uniswapPath : UniswapPath
  gasUsed : ℕ
  amount : ℕ
  deriving DecidableEq

/-- What the arrays hold where nothing was quoted. -/
def noQuote : Quote := { uniswapPath := [], gasUsed := 0, amount := 0 }

/-- The quote of a result for sample `j`, if no amount up to `j` is zero. -/
def countedQuote (uniswapPath : UniswapPath) (amounts gasEstimates : List ℕ) (j : ℕ) :
    Option Quote :=
  (amounts.takeWhile fun amount => amount != 0)[j]?.map fun amount =>
    { uniswapPath, gasUsed := gasEstimates.getD j 0, amount }

/-- What a sampler keeps at a sample after one more quote. -/
def replace (wins : ℕ → ℕ → Bool) (kept q : Quote) : Quote :=
  if wins kept.amount q.amount then q
  else if kept.amount = q.amount ∧ kept.gasUsed > q.gasUsed then
    { kept with uniswapPath := q.uniswapPath, gasUsed := q.gasUsed }
  else kept

namespace Samples

/-- The three entries at a place. -/
def entry (samples : Samples) (j : ℕ) : Quote where
  uniswapPath := samples.uniswapPaths.getD j []
  gasUsed := samples.uniswapGasUsed.getD j 0
  amount := samples.amounts.getD j 0

/-- The three entries written at a place. -/
def put (samples : Samples) (j : ℕ) (q : Quote) : Samples where
  uniswapPaths := samples.uniswapPaths.set j q.uniswapPath
  uniswapGasUsed := samples.uniswapGasUsed.set j q.gasUsed
  amounts := samples.amounts.set j q.amount

/-- Three arrays of length `n`. -/
structure HasLength (samples : Samples) (n : ℕ) : Prop where
  paths : samples.uniswapPaths.length = n
  gas : samples.uniswapGasUsed.length = n
  amounts : samples.amounts.length = n

theorem hasLength_zeros (n : ℕ) : (zeros n).HasLength n :=
  ⟨List.length_replicate, List.length_replicate, List.length_replicate⟩

theorem entry_zeros {n j : ℕ} (hj : j < n) : (zeros n).entry j = noQuote := by
  simp [zeros, entry, noQuote, hj]

theorem HasLength.put {samples : Samples} {n : ℕ} (h : samples.HasLength n) (j : ℕ) (q : Quote) :
    (samples.put j q).HasLength n := by
  constructor
  · simp [Samples.put, h.paths]
  · simp [Samples.put, h.gas]
  · simp [Samples.put, h.amounts]

theorem entry_put_self {samples : Samples} {n j : ℕ} (h : samples.HasLength n) (hj : j < n)
    (q : Quote) : (samples.put j q).entry j = q := by
  simp [Samples.put, entry, h.paths, h.gas, h.amounts, hj]

theorem entry_put_ne {samples : Samples} {j k : ℕ} (hne : k ≠ j) (q : Quote) :
    (samples.put j q).entry k = samples.entry k := by
  simp [Samples.put, entry, List.getD_eq_getElem?_getD, List.getElem?_set_ne hne.symm]

theorem set_getD_self {α : Type} (array : List α) (j : ℕ) (d : α) :
    array.set j (array.getD j d) = array := by
  by_cases hj : j < array.length
  · simp [List.getD_eq_getElem?_getD, hj]
  · exact List.set_eq_of_length_le (not_lt.mp hj)

theorem put_entry (samples : Samples) (j : ℕ) : samples.put j (samples.entry j) = samples := by
  simp only [Samples.put, entry, set_getD_self]

end Samples

theorem read_eq {array : List ℕ} {j : ℕ} (hj : j < array.length) :
    read array j = .ok (array.getD j 0) := by
  simp [read, hj]

/-- The loop over a result at an amount that is not zero: the entries at its place are replaced. -/
theorem keepBest_cons {wins : ℕ → ℕ → Bool} {path : UniswapPath} {gasEstimates amounts : List ℕ}
    {amount j n : ℕ} {samples : Samples} (hn : samples.HasLength n) (hj : j < n)
    (hgas : j < gasEstimates.length) (hamount : amount ≠ 0) :
    keepBest wins (.ok path) gasEstimates (amount :: amounts) j samples =
      keepBest wins (.ok path) gasEstimates amounts (j + 1)
        (samples.put j (replace wins (samples.entry j)
          { uniswapPath := path, gasUsed := gasEstimates.getD j 0, amount })) := by
  have hkept : read samples.amounts j = .ok (samples.entry j).amount :=
    read_eq (by rw [hn.amounts]; exact hj)
  have hused : read samples.uniswapGasUsed j = .ok (samples.entry j).gasUsed :=
    read_eq (by rw [hn.gas]; exact hj)
  have hestimate : read gasEstimates j = .ok (gasEstimates.getD j 0) := read_eq hgas
  rw [keepBest, if_neg hamount, hkept, ok_bind]
  by_cases hwins : wins (samples.entry j).amount amount = true
  · simp only [hwins, if_true, ok_bind, hestimate, replace]
    rfl
  by_cases htie : (samples.entry j).amount = amount
  · subst htie
    by_cases hless : (samples.entry j).gasUsed > gasEstimates.getD j 0
    · -- only the path and the gas are written, and the amount is the same
      simp only [hwins, Bool.false_eq_true, if_false, if_true, hused, hestimate, ok_bind, hless,
        replace, and_self, Samples.put]
      congr 2
      exact (Samples.set_getD_self samples.amounts j 0).symm
    · simp only [hwins, Bool.false_eq_true, if_false, if_true, hused, hestimate, ok_bind, hless,
        replace, and_false, samples.put_entry]
  · simp only [hwins, Bool.false_eq_true, if_false, htie, replace, false_and, samples.put_entry]

/-- The loop over a result from sample `j` on: the entries before stay, and each entry after is
replaced by its quote until the first zero. -/
theorem keepBest_spec (wins : ℕ → ℕ → Bool) (path : UniswapPath) {gasEstimates amounts : List ℕ}
    {j n : ℕ} {samples : Samples} (hn : samples.HasLength n) (hj : j + amounts.length ≤ n)
    (hgas : gasEstimates.length = n) :
    ∃ samples', keepBest wins (.ok path) gasEstimates amounts j samples = .ok samples' ∧
      samples'.HasLength n ∧ (∀ k < j, samples'.entry k = samples.entry k) ∧
      ∀ i, samples'.entry (j + i) =
        match (amounts.takeWhile fun amount => amount != 0)[i]? with
        | none => samples.entry (j + i)
        | some amount => replace wins (samples.entry (j + i))
            { uniswapPath := path, gasUsed := gasEstimates.getD (j + i) 0, amount } := by
  induction amounts generalizing j samples with
  | nil => exact ⟨samples, rfl, hn, fun k _ => rfl, fun i => by simp⟩
  | cons amount amounts ih =>
    rw [List.length_cons] at hj
    -- a zero ends the loop and the quotes that count
    by_cases hzero : amount = 0
    · refine ⟨samples, ?_, hn, fun k _ => rfl, fun i => by simp [hzero]⟩
      rw [keepBest, if_pos hzero]
      rfl
    · have hjn : j < n := by omega
      rw [keepBest_cons hn hjn (by omega) hzero]
      obtain ⟨samples', hrun, hn', hbefore, hafter⟩ :=
        ih (hn.put j _) (show j + 1 + amounts.length ≤ n by omega)
      refine ⟨samples', hrun, hn', ?_, ?_⟩
      · intro k hk
        rw [hbefore k (by omega), Samples.entry_put_ne (by omega)]
      · intro i
        have hne : (amount != 0) = true := bne_iff_ne.mpr hzero
        rw [List.takeWhile_cons_of_pos (p := fun amount => amount != 0) hne]
        -- this place is written now, the others by the rest of the loop
        cases i with
        | zero =>
          rw [Nat.add_zero, hbefore j (Nat.lt_succ_self j), Samples.entry_put_self hn hjn]
          rfl
        | succ i =>
          have hplace : j + (i + 1) = j + 1 + i := by omega
          rw [hplace, hafter i, Samples.entry_put_ne (by omega), List.getElem?_cons_succ]

/-! ## The pass over the candidates -/

section Pass

variable (wins : ℕ → ℕ → Bool) (quote : UniswapPath → List ℕ → CallOutcome)
  (quotedPath keptPath : List Address → UniswapPath)

/-- The quote of a candidate for sample `j`. -/
def candidateQuote (amounts : List ℕ) (j : ℕ) (poolPath : List Address) : Option Quote :=
  (caughtResult (quote (quotedPath poolPath) amounts)).bind fun result =>
    countedQuote (keptPath poolPath) result.1 result.2 j

/-- The quotes of pool paths for sample `j`, in their order. -/
def quotesFor (amounts : List ℕ) (poolPaths : List (List Address)) (j : ℕ) : List Quote :=
  (poolPaths.filter isValidPoolPath).filterMap
    (candidateQuote quote quotedPath keptPath amounts j)

variable {quote quotedPath keptPath}

theorem amount_ne_zero_of_candidateQuote {amounts : List ℕ} {j : ℕ} {poolPath : List Address}
    {q : Quote} (h : candidateQuote quote quotedPath keptPath amounts j poolPath = some q) :
    q.amount ≠ 0 := by
  obtain ⟨result, -, h⟩ := Option.bind_eq_some_iff.mp h
  obtain ⟨amount, hamount, rfl⟩ := Option.map_eq_some_iff.mp h
  have hmem := List.mem_of_getElem? hamount
  simpa using List.mem_takeWhile_imp hmem

variable {quoted kept : List Address → Except Revert UniswapPath} {amounts : List ℕ}

/-- One valid pool path: at each sample its quote, if it has one, meets what is kept. -/
theorem samplePoolPath_spec (hquote : ∀ path, (quote path amounts).Answers amounts.length)
    {poolPath : List Address} (hquoted : quoted poolPath = .ok (quotedPath poolPath))
    (hkept : kept poolPath = .ok (keptPath poolPath)) (hvalid : isValidPoolPath poolPath = true)
    {samples : Samples} (hn : samples.HasLength amounts.length) :
    ∃ samples', samplePoolPath wins quote quoted kept amounts samples poolPath = .ok samples' ∧
      samples'.HasLength amounts.length ∧ ∀ j, samples'.entry j =
        match candidateQuote quote quotedPath keptPath amounts j poolPath with
        | none => samples.entry j
        | some q => replace wins (samples.entry j) q := by
  unfold samplePoolPath candidateQuote
  rw [hvalid, hquoted, hkept]
  cases hresult : caughtResult (quote (quotedPath poolPath) amounts) with
  | none => exact ⟨samples, by simp [ok_bind, hresult]; rfl, hn, fun j => rfl⟩
  | some result =>
    obtain ⟨hlength, hgas⟩ := (hquote _).lengths hresult
    obtain ⟨samples', hrun, hn', -, hentries⟩ := keepBest_spec wins
      (keptPath poolPath) hn (show 0 + result.1.length ≤ amounts.length by omega) hgas
    refine ⟨samples', by simp [ok_bind, hresult, hrun], hn', ?_⟩
    intro j
    have hentry := hentries j
    rw [Nat.zero_add] at hentry
    rw [hentry, Option.bind_some, countedQuote]
    cases (result.1.takeWhile fun amount => amount != 0)[j]? with
    | none => rfl
    | some amount => rfl

variable {wins} {β : Type} [LinearOrder β] {key : Quote → β}

/-- The rule of a sampler prefers the larger key: it keeps a quote until one of larger key comes,
and takes any where it has none. -/
def Prefers (wins : ℕ → ℕ → Bool) (key : Quote → β) : Prop :=
  ∀ (kept : Option Quote) (q : Quote), (∀ c ∈ kept, c.amount ≠ 0) → q.amount ≠ 0 →
    replace wins (kept.getD noQuote) q = better key kept q

variable (quotedPath keptPath)

/-- After the pass the entries at each sample are those of the best quote. -/
theorem foldlM_samplePoolPath (hquote : ∀ path, (quote path amounts).Answers amounts.length)
    (hwins : Prefers wins key) {poolPaths : List (List Address)}
    (hpaths : ∀ poolPath ∈ poolPaths, quoted poolPath = .ok (quotedPath poolPath) ∧
      kept poolPath = .ok (keptPath poolPath))
    {samples : Samples} (hn : samples.HasLength amounts.length) (done : ℕ → List Quote)
    (hdone : ∀ j, ∀ q ∈ done j, q.amount ≠ 0)
    (hbest : ∀ j < amounts.length, samples.entry j = ((done j).argmax key).getD noQuote) :
    ∃ samples', poolPaths.foldlM (samplePoolPath wins quote quoted kept amounts) samples =
        .ok samples' ∧
      samples'.HasLength amounts.length ∧ ∀ j < amounts.length, samples'.entry j =
        ((done j ++ quotesFor quote quotedPath keptPath amounts poolPaths j).argmax key).getD
          noQuote := by
  induction poolPaths generalizing samples done with
  | nil => exact ⟨samples, rfl, hn, fun j hj => by simpa [quotesFor] using hbest j hj⟩
  | cons poolPath poolPaths ih =>
    have hrest : ∀ pp ∈ poolPaths, quoted pp = .ok (quotedPath pp) ∧ kept pp = .ok (keptPath pp) :=
      fun pp hpp => hpaths pp (List.mem_cons_of_mem poolPath hpp)
    by_cases hvalid : isValidPoolPath poolPath = true
    · obtain ⟨hq, hk⟩ := hpaths poolPath List.mem_cons_self
      obtain ⟨samples₁, hstep, hn₁, hentries⟩ :=
        samplePoolPath_spec wins hquote hq hk hvalid hn
      -- the quote of this path joins those that are done
      obtain ⟨samples', hrun, hn', hfinal⟩ := ih hrest hn₁
        (fun j => done j ++ (candidateQuote quote quotedPath keptPath amounts j poolPath).toList)
        (by
          intro j q hq
          rcases List.mem_append.mp hq with hq | hq
          · exact hdone j q hq
          · exact amount_ne_zero_of_candidateQuote (Option.mem_toList.mp hq))
        (by
          intro j hj
          rw [hentries j, hbest j hj]
          cases hcand : candidateQuote quote quotedPath keptPath amounts j poolPath with
          | none => simp
          | some q =>
            have hkeptne : ∀ c ∈ (done j).argmax key, c.amount ≠ 0 :=
              fun c hc => hdone j c (List.argmax_mem hc)
            rw [Option.toList_some, argmax_concat_eq, Option.getD_some]
            exact hwins _ q hkeptne (amount_ne_zero_of_candidateQuote hcand))
      refine ⟨samples', by rw [List.foldlM_cons, hstep, ok_bind, hrun], hn', ?_⟩
      intro j hj
      rw [hfinal j hj, List.append_assoc]
      congr 3
      cases hcand : candidateQuote quote quotedPath keptPath amounts j poolPath with
      | none => simp [quotesFor, hvalid, hcand]
      | some q => simp [quotesFor, hvalid, hcand]
    · obtain ⟨samples', hrun, hn', hfinal⟩ := ih hrest hn done hdone hbest
      have hskip :
          samplePoolPath wins quote quoted kept amounts samples poolPath = .ok samples := by
        simp [samplePoolPath, hvalid]
      refine ⟨samples', by rw [List.foldlM_cons, hskip, ok_bind, hrun], hn', ?_⟩
      intro j hj
      rw [hfinal j hj]
      simp [quotesFor, hvalid]

end Pass

/-! ## The best quotes -/

/-- What a sell prefers: more output, then less gas. -/
def sellKey (q : Quote) : ℕ ×ₗ ℕᵒᵈ := toLex (q.amount, OrderDual.toDual q.gasUsed)

/-- What a buy prefers: less input, then less gas. -/
def buyKey (q : Quote) : (ℕ ×ₗ ℕ)ᵒᵈ := OrderDual.toDual (toLex (q.amount, q.gasUsed))

theorem sellKey_lt {c q : Quote} :
    sellKey c < sellKey q ↔
      c.amount < q.amount ∨ (c.amount = q.amount ∧ q.gasUsed < c.gasUsed) := by
  simp [sellKey, Prod.Lex.toLex_lt_toLex]

theorem buyKey_lt {c q : Quote} :
    buyKey c < buyKey q ↔
      q.amount < c.amount ∨ (q.amount = c.amount ∧ q.gasUsed < c.gasUsed) := by
  simp [buyKey, Prod.Lex.toLex_lt_toLex]

/-- A rule prefers a key if it takes anything over nothing, and a quote over a kept one where the
amount wins or it ties with less gas. -/
theorem prefers_of {β : Type} [LinearOrder β] {wins : ℕ → ℕ → Bool} {key : Quote → β}
    (hfirst : ∀ amount, amount ≠ 0 → wins 0 amount = true)
    (hlt : ∀ c q : Quote, c.amount ≠ 0 → (key c < key q ↔
      wins c.amount q.amount = true ∨ (c.amount = q.amount ∧ q.gasUsed < c.gasUsed))) :
    Prefers wins key := by
  intro kept q hkept hq
  cases kept with
  | none =>
    have hwins : wins noQuote.amount q.amount = true := hfirst q.amount hq
    simp [replace, better, hwins]
  | some c =>
    have hc := hlt c q (hkept c rfl)
    simp only [Option.getD_some, replace, better, hc]
    by_cases hwins : wins c.amount q.amount = true
    · simp [hwins]
    · by_cases htie : c.amount = q.amount ∧ q.gasUsed < c.gasUsed
      · obtain ⟨hamount, hless⟩ := htie
        rw [if_neg hwins, if_pos ⟨hamount, hless⟩, if_pos (Or.inr ⟨hamount, hless⟩), hamount]
      · simp [hwins, htie]

theorem prefers_sell : Prefers (fun kept amount => kept < amount) sellKey := by
  apply prefers_of
  · intro amount hne
    simpa using Nat.pos_of_ne_zero hne
  · intro c q _
    rw [sellKey_lt]
    simp

theorem prefers_buy : Prefers (fun kept amount => kept == 0 || kept > amount) buyKey := by
  apply prefers_of
  · intro amount hne
    rfl
  · intro c q hc
    rw [buyKey_lt, eq_comm]
    simp [hc]

/-- The quote a sell reports: nothing where there is none, else one of them, with an output that no
other exceeds and no more gas than another of the same output. -/
def BestSell (quotes : List Quote) (r : Quote) : Prop :=
  (quotes = [] ∧ r = noQuote) ∨
    (r ∈ quotes ∧ ∀ q ∈ quotes,
      q.amount < r.amount ∨ (q.amount = r.amount ∧ r.gasUsed ≤ q.gasUsed))

/-- The quote a buy reports: the same with the least input. -/
def BestBuy (quotes : List Quote) (r : Quote) : Prop :=
  (quotes = [] ∧ r = noQuote) ∨
    (r ∈ quotes ∧ ∀ q ∈ quotes,
      r.amount < q.amount ∨ (q.amount = r.amount ∧ r.gasUsed ≤ q.gasUsed))

theorem argmax_cases {β : Type} [LinearOrder β] (key : Quote → β) (quotes : List Quote) :
    (quotes = [] ∧ (quotes.argmax key).getD noQuote = noQuote) ∨
      ((quotes.argmax key).getD noQuote ∈ quotes ∧
        ∀ q ∈ quotes, ¬ key ((quotes.argmax key).getD noQuote) < key q) := by
  cases hr : quotes.argmax key with
  | none => exact Or.inl ⟨List.argmax_eq_none.mp hr, rfl⟩
  | some r => exact Or.inr ⟨List.argmax_mem hr, fun q hq => List.not_lt_of_mem_argmax hq hr⟩

theorem bestSell_argmax (quotes : List Quote) :
    BestSell quotes ((quotes.argmax sellKey).getD noQuote) := by
  rcases argmax_cases sellKey quotes with hnone | ⟨hmem, hbest⟩
  · exact Or.inl hnone
  · refine Or.inr ⟨hmem, fun q hq => ?_⟩
    have hle := hbest q hq
    rw [sellKey_lt] at hle
    omega

theorem bestBuy_argmax (quotes : List Quote) :
    BestBuy quotes ((quotes.argmax buyKey).getD noQuote) := by
  rcases argmax_cases buyKey quotes with hnone | ⟨hmem, hbest⟩
  · exact Or.inl hnone
  · refine Or.inr ⟨hmem, fun q hq => ?_⟩
    have hle := hbest q hq
    rw [buyKey_lt] at hle
    omega

/-- The amount the pools are ranked for. -/
def lastAmount (amounts : List ℕ) : ℕ := amounts.getD (amounts.length - 1) 0

/-- The quotes that count for sample `j` of a sell: those of the candidates. -/
def sellQuotes (chain : Chain) (path : List Address) (takerTokenAmounts : List ℕ) (j : ℕ) :
    List Quote :=
  (candidates chain path (lastAmount takerTokenAmounts)).filterMap
    (candidateQuote (chain.multiQuoter.quoteExactMultiInput none) (packPath chain path)
      (packPath chain path) takerTokenAmounts j)

/-- The quotes that count for sample `j` of a buy, which go along the reversed path. -/
def buyQuotes (chain : Chain) (path : List Address) (makerTokenAmounts : List ℕ) (j : ℕ) :
    List Quote :=
  (candidates chain path.reverse (lastAmount makerTokenAmounts)).filterMap
    (candidateQuote chain.multiQuoter.quoteExactMultiOutput (packPath chain path.reverse)
      (fun poolPath => packPath chain path poolPath.reverse) makerTokenAmounts j)

section Best

variable (chain : Chain) {path : List Address} (hpath : path.length = 2 ∨ path.length = 3)
  {amounts : List ℕ} (hne : amounts ≠ [])

include hne in
theorem read_last : read amounts (amounts.length - 1) = .ok (lastAmount amounts) := by
  have hpos := List.length_pos_iff.mpr hne
  exact read_eq (by omega)

include hpath hne in
/-- A sell of samples returns at each the best of the quotes that count. -/
theorem sampleSells_best :
    ∃ samples, sampleSellsFromUniswapV3 chain path amounts = .ok samples ∧
      samples.HasLength amounts.length ∧ ∀ j < amounts.length,
        BestSell (sellQuotes chain path amounts j) (samples.entry j) := by
  obtain ⟨poolPaths, hpools, hfilter, hlengths⟩ :=
    getPoolPaths_spec chain (lastAmount amounts) hpath
  have hpaths : ∀ poolPath ∈ poolPaths,
      toUniswapPath chain path poolPath = .ok (packPath chain path poolPath) := by
    intro poolPath hmem
    exact toUniswapPath_eq chain (by omega) (hlengths poolPath hmem)
  obtain ⟨samples, hrun, hn, hentries⟩ := foldlM_samplePoolPath
    (packPath chain path) (packPath chain path)
    (fun path => chain.multiQuoter.input_answers none path amounts) prefers_sell
    (fun poolPath hmem => ⟨hpaths poolPath hmem, hpaths poolPath hmem⟩)
    (Samples.hasLength_zeros amounts.length) (fun _ => []) (by simp)
    (fun j hj => Samples.entry_zeros hj)
  refine ⟨samples, ?_, hn, ?_⟩
  · rw [sampleSellsFromUniswapV3, read_last hne, ok_bind, hpools, ok_bind]
    exact hrun
  · intro j hj
    rw [hentries j hj, List.nil_append, quotesFor, hfilter]
    exact bestSell_argmax _

include hpath hne in
/-- A buy of samples returns at each the best of the quotes that count. -/
theorem sampleBuys_best :
    ∃ samples, sampleBuysFromUniswapV3 chain path amounts = .ok samples ∧
      samples.HasLength amounts.length ∧ ∀ j < amounts.length,
        BestBuy (buyQuotes chain path amounts j) (samples.entry j) := by
  have hreverse : path.reverse.length = 2 ∨ path.reverse.length = 3 := by
    rw [List.length_reverse]
    exact hpath
  obtain ⟨poolPaths, hpools, hfilter, hlengths⟩ :=
    getPoolPaths_spec chain (lastAmount amounts) hreverse
  have hpaths : ∀ poolPath ∈ poolPaths,
      toUniswapPath chain path.reverse poolPath = .ok (packPath chain path.reverse poolPath) ∧
        toUniswapPath chain path poolPath.reverse = .ok (packPath chain path poolPath.reverse) := by
    intro poolPath hmem
    have hlength := hlengths poolPath hmem
    constructor
    · exact toUniswapPath_eq chain (by omega) hlength
    · apply toUniswapPath_eq chain (by omega)
      rwa [List.length_reverse] at hlength ⊢
  obtain ⟨samples, hrun, hn, hentries⟩ := foldlM_samplePoolPath
    (packPath chain path.reverse) (fun poolPath => packPath chain path poolPath.reverse)
    (fun path => chain.multiQuoter.output_answers path amounts) prefers_buy hpaths
    (Samples.hasLength_zeros amounts.length) (fun _ => []) (by simp)
    (fun j hj => Samples.entry_zeros hj)
  refine ⟨samples, ?_, hn, ?_⟩
  · rw [sampleBuysFromUniswapV3, read_last hne, ok_bind, hpools, ok_bind]
    exact hrun
  · intro j hj
    rw [hentries j hj, List.nil_append, quotesFor, hfilter]
    exact bestBuy_argmax _

/-- Both samplers return, and report for each sample the best of the quotes of the candidates that
stand before the first zero of their result. -/
theorem sampleFromUniswapV3_best (chain : Chain) (path : List Address)
    (hpath : path.length = 2 ∨ path.length = 3) (amounts : List ℕ) (hne : amounts ≠ []) :
    (∃ samples, sampleSellsFromUniswapV3 chain path amounts = .ok samples ∧
      samples.HasLength amounts.length ∧ ∀ j < amounts.length,
        BestSell (sellQuotes chain path amounts j) (samples.entry j)) ∧
      ∃ samples, sampleBuysFromUniswapV3 chain path amounts = .ok samples ∧
        samples.HasLength amounts.length ∧ ∀ j < amounts.length,
          BestBuy (buyQuotes chain path amounts j) (samples.entry j) :=
  ⟨sampleSells_best chain hpath hne, sampleBuys_best chain hpath hne⟩

end Best

/-! ## The multi-quoter of the repository -/

/-- The pools of a packed path, in its order. -/
def decodePools : UniswapPath → List MultiQuoter.PathPool
  | .token tokenA :: .fee fee :: .token tokenB :: rest =>
    ⟨tokenA, tokenB, fee⟩ :: decodePools (.token tokenB :: rest)
  | _ => []

/-- What gas decides: whether a call runs out of what it is given, and the estimates of a result. -/
structure Gas where
  runsOut : Option ℕ → UniswapPath → List ℕ → Bool
  estimate : UniswapPath → List ℕ → ℕ → ℕ

/-- How a call of the quoter reverts: with its result, or as its arithmetic or the gas has it. -/
def answer (gas : Gas) (limit : Option ℕ) (path : UniswapPath) (amounts : List ℕ)
    (result : Except MultiQuoter.Revert (List ℕ)) : CallOutcome :=
  if gas.runsOut limit path amounts then .reverted .other
  else
    match result with
    | .ok quoted =>
      .reverted (.result quoted ((List.range amounts.length).map (gas.estimate path amounts)))
    | .error _ => .reverted .other

theorem answers_answer {gas : Gas} {limit : Option ℕ} {path : UniswapPath} {amounts : List ℕ}
    {result : Except MultiQuoter.Revert (List ℕ)}
    (h : ∀ quoted, result = .ok quoted → quoted.length = amounts.length) :
    (answer gas limit path amounts result).Answers amounts.length := by
  intro quoted gasEstimates hanswer
  unfold answer at hanswer
  split at hanswer
  · cases hanswer
  · cases result with
    | error revert => cases hanswer
    | ok result =>
      cases hanswer
      exact ⟨h quoted rfl, by rw [List.length_map, List.length_range]⟩

/-- `UniswapV3MultiQuoter` as the samplers call it. -/
def multiQuoterOf (quoter : MultiQuoter.Quoter) (factory : MultiQuoter.Factory) (gas : Gas) :
    IUniswapV3MultiQuoter where
  quoteExactMultiInput limit path amounts := answer gas limit path amounts
    (MultiQuoter.quoteExactMultiInput quoter factory (decodePools path) amounts)
  quoteExactMultiOutput path amounts := answer gas none path amounts
    (MultiQuoter.quoteExactMultiOutput quoter factory (decodePools path) amounts)
  input_answers _ _ _ := answers_answer fun _ h => MultiQuoter.length_quoteExactMultiInput h
  output_answers _ _ := answers_answer fun _ h => MultiQuoter.length_quoteExactMultiOutput h

/-! ## A quote after a zero -/

/-- Quotes of half the amount, rounded down. -/
def halfQuotes (amounts : List ℕ) : CallOutcome :=
  .reverted (.result (amounts.map fun amount => amount / 2) (amounts.map fun _ => 100))

theorem halfQuotes_answers (amounts : List ℕ) : (halfQuotes amounts).Answers amounts.length := by
  intro outputs gasEstimates h
  cases h
  simp

/-- A chain with one pool, whose quotes are those. -/
def sampleChain : Chain where
  getPool _ _ fee := if fee = 500 then 7 else 0
  codeSize pool := if pool = 0 then 0 else 1
  codeSize_zero := rfl
  token0 _ := 1
  token1 _ := 2
  fee _ := 500
  balanceOf _ _ := 1
  multiQuoter :=
    { quoteExactMultiInput := fun _ _ amounts => halfQuotes amounts
      quoteExactMultiOutput := fun _ amounts => halfQuotes amounts
      input_answers := fun _ _ amounts => halfQuotes_answers amounts
      output_answers := fun _ amounts => halfQuotes_answers amounts }

theorem sampleFromUniswapV3_best_sample :
    (∃ samples, sampleSellsFromUniswapV3 sampleChain [1, 2] [10, 40] = .ok samples ∧
      samples.HasLength 2 ∧ ∀ j < 2,
        BestSell (sellQuotes sampleChain [1, 2] [10, 40] j) (samples.entry j)) ∧
      ∃ samples, sampleBuysFromUniswapV3 sampleChain [1, 2] [10, 40] = .ok samples ∧
        samples.HasLength 2 ∧ ∀ j < 2,
          BestBuy (buyQuotes sampleChain [1, 2] [10, 40] j) (samples.entry j) :=
  sampleFromUniswapV3_best sampleChain [1, 2] (Or.inl rfl) [10, 40] (List.cons_ne_nil _ _)

/-- The output of twenty that is quoted for the second sample is not reported, as there is none for
the first. -/
theorem sampleSells_drops_after_zero :
    ¬ ∀ samples, sampleSellsFromUniswapV3 sampleChain [1, 2] [1, 40] = .ok samples →
      ∀ poolPath ∈ candidates sampleChain [1, 2] 40, ∀ outputs gasEstimates,
        caughtResult (sampleChain.multiQuoter.quoteExactMultiInput none
          (packPath sampleChain [1, 2] poolPath) [1, 40]) = some (outputs, gasEstimates) →
        ∀ j < 2, outputs.getD j 0 ≤ (samples.entry j).amount := by
  intro h
  have hrun : sampleSellsFromUniswapV3 sampleChain [1, 2] [1, 40] =
      .ok { uniswapPaths := [[], []], uniswapGasUsed := [0, 0], amounts := [0, 0] } := by
    decide +kernel
  have hcandidate : [7] ∈ candidates sampleChain [1, 2] 40 := by decide +kernel
  have hle := h _ hrun [7] hcandidate [0, 20] [100, 100] rfl 1 (by decide)
  exact absurd hle (by decide)

end ZeroExApi.UniswapV3Sampler
