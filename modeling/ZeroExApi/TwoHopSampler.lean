/-
# ZeroExApi.TwoHopSampler — the best first hop, and the best second hop after it

`contracts/src/TwoHopSampler.sol`.  The sampler calls itself with the call data of each hop,
compares by the last amount that each call returns, and writes the amounts of the winner of one hop
into the call data of the other.

The index, the return data and the amounts that are kept are those of one call: the first of the
best (`sampleHop_best`).  The amounts are written to the last words of the call data, and nothing
else of it changes (`writeAmounts_eq`).  From both, what the samplers return: `twoHopSampler_spec`.

The outcomes of the calls are arbitrary: `call i callData` is that of the contract's `i`-th call to
itself.
-/

import ZeroExApi.SamplerBatch
import ZeroExApi.Lib.AbiWords
import ZeroExApi.Lib.Fallible

namespace ZeroExApi.TwoHopSampler

open ZeroExApi.SamplerBatch ZeroExApi.Lib ZeroExApi.Lib.AbiWords

/-- Ways for the contract to revert. -/
inductive Revert where
  /-- `LibBytes` was given a range outside of the data. -/
  | invalidByteOperation
  /-- `abi.decode` was given data that is too short. -/
  | invalidEncoding
  /-- An array was read outside of its bounds. -/
  | invalidIndex
  deriving DecidableEq

structure HopInfo where
  sourceIndex : ℕ
  returnData : Bytes
  deriving DecidableEq

/-- What an uninitialized `HopInfo` is. -/
def HopInfo.zero : HopInfo := { sourceIndex := 0, returnData := [] }

/-- `uint256(-1)`. -/
def MAX_UINT256 : ℕ := 2 ^ 256 - 1

/-! ## Amounts in bytes -/

/-- `abi.decode(amounts, (uint256[]))`. -/
def decodeAmounts (data : Bytes) : Except Revert (List ℕ) :=
  let offset := ofBytes (data.take 32)
  let length := ofBytes ((data.drop offset).take 32)
  if offset + 32 + 32 * length ≤ data.length then
    .ok (decodeWords length (data.drop (offset + 32)))
  else
    .error .invalidEncoding

/-- `getAmounts`. -/
def getAmounts (data : Bytes) (amountsLength : ℕ) : Except Revert (List ℕ) :=
  -- otherwise the start is wrapped around, and `slice` reverts
  if (amountsLength + 2) * 32 ≤ data.length then
    let start := data.length - (amountsLength + 2) * 32
    let amounts := data.drop start
    decodeAmounts (storeWord amounts 0 0x20)
  else
    .error .invalidByteOperation

/-- `writeAmounts`: the `i`-th turn of its loop writes the word that ends at `index`. -/
def writeAmounts (data : Bytes) (amounts : List ℕ) : Bytes :=
  amounts.zipIdx.foldl (fun data (amount, i) =>
    let index := data.length - 32 * (amounts.length - i - 1)
    storeWord data (index - 32) amount) data

/-- An element of an array. -/
def elementAt (amounts : List ℕ) (index : ℕ) : Except Revert ℕ :=
  match amounts[index]? with
  | some amount => .ok amount
  | none => .error .invalidIndex

/-! ## Hops -/

/-- A hop and its amounts. -/
structure Kept where
  hop : HopInfo
  amounts : List ℕ
  deriving DecidableEq

/-- The loop over the calls of a hop: it keeps what beats the last amount kept so far. -/
def sampleHop (beats : ℕ → ℕ → Bool) (call : ℕ → Bytes → SamplerCallResult) (numSamples : ℕ) :
    ℕ → List Bytes → Kept → Except Revert Kept
  | _, [], kept => .ok kept
  | i, callData :: callDatas, kept =>
    let result := call i callData
    if result.success then do
      let amounts ← getAmounts result.data numSamples
      let amount ← elementAt amounts (numSamples - 1)
      let keptAmount ← elementAt kept.amounts (numSamples - 1)
      if beats amount keptAmount then
        let kept := { hop := ⟨i, result.data⟩, amounts := amounts.take numSamples }
        sampleHop beats call numSamples (i + 1) callDatas kept
      else
        sampleHop beats call numSamples (i + 1) callDatas kept
    else
      sampleHop beats call numSamples (i + 1) callDatas kept

/-- A larger amount. -/
def beatsSell (amount keptAmount : ℕ) : Bool := decide (keptAmount < amount)

/-- A smaller amount that is not zero. -/
def beatsBuy (amount keptAmount : ℕ) : Bool := decide (0 < amount ∧ amount < keptAmount)

/-- `sampleTwoHopSell`. -/
def sampleTwoHopSell (call : ℕ → Bytes → SamplerCallResult)
    (firstHopCalls secondHopCalls : List Bytes) (numSamples : ℕ) :
    Except Revert (HopInfo × HopInfo × List ℕ) := do
  let zeros := List.replicate numSamples 0
  let first ← sampleHop beatsSell call numSamples 0 firstHopCalls ⟨.zero, zeros⟩
  let intermediateAmounts := first.amounts
  if (← elementAt intermediateAmounts (numSamples - 1)) = 0 then
    return (first.hop, .zero, zeros)
  let calls := secondHopCalls.map fun callData => writeAmounts callData intermediateAmounts
  let second ← sampleHop beatsSell (fun i => call (firstHopCalls.length + i)) numSamples 0 calls
    ⟨.zero, zeros⟩
  return (first.hop, second.hop, second.amounts)

/-- `sampleTwoHopBuy`. -/
def sampleTwoHopBuy (call : ℕ → Bytes → SamplerCallResult)
    (firstHopCalls secondHopCalls : List Bytes) (numSamples : ℕ) :
    Except Revert (HopInfo × HopInfo × List ℕ) := do
  let maxes := List.replicate numSamples MAX_UINT256
  let second ← sampleHop beatsBuy call numSamples 0 secondHopCalls ⟨.zero, maxes⟩
  let intermediateAmounts := second.amounts
  if (← elementAt intermediateAmounts (numSamples - 1)) = MAX_UINT256 then
    return (.zero, second.hop, maxes)
  let calls := firstHopCalls.map fun callData => writeAmounts callData intermediateAmounts
  let first ← sampleHop beatsBuy (fun i => call (secondHopCalls.length + i)) numSamples 0 calls
    ⟨.zero, maxes⟩
  return (first.hop, second.hop, first.amounts)

/-! ## What is read and written -/

/-- Data that ends in an ABI-encoded `uint256[]`: the word of its offset, its length, its
elements. -/
structure EndsInAmounts (numSamples : ℕ) (data : Bytes) (amounts : List ℕ) : Prop where
  length_eq : amounts.length = numSamples
  amount_lt : ∀ amount ∈ amounts, amount < 2 ^ 256
  data_eq : ∃ front offset : Bytes, offset.length = 32 ∧
    data = front ++ (offset ++ (encodeWord numSamples ++ encodeWords amounts))

theorem getAmounts_eq {numSamples : ℕ} (hsamples : numSamples < 2 ^ 256) {data : Bytes}
    {amounts : List ℕ} (h : EndsInAmounts numSamples data amounts) :
    getAmounts data numSamples = .ok amounts := by
  obtain ⟨hlength, hwords, front, offset, hoffset, rfl⟩ := h
  have htotal : (front ++ (offset ++ (encodeWord numSamples ++ encodeWords amounts))).length
      = front.length + (numSamples + 2) * 32 := by
    simp only [List.length_append, length_encodeWord, length_encodeWords, hoffset, hlength]
    ring
  unfold getAmounts
  rw [if_pos (by omega), htotal, Nat.add_sub_cancel]
  dsimp only
  rw [List.drop_left' rfl]
  -- the offset is overwritten, and the length is right behind it
  have hstored : storeWord (offset ++ (encodeWord numSamples ++ encodeWords amounts)) 0 0x20
      = encodeWord 0x20 ++ (encodeWord numSamples ++ encodeWords amounts) := by
    unfold storeWord
    rw [List.take_zero, List.nil_append, Nat.zero_add, List.drop_left' hoffset]
  rw [hstored]
  unfold decodeAmounts
  dsimp only
  rw [List.take_left' (length_encodeWord _), ofBytes_encodeWord (by decide),
    List.drop_left' (length_encodeWord _), List.take_left' (length_encodeWord _),
    ofBytes_encodeWord hsamples, ← List.drop_drop, List.drop_left' (length_encodeWord _),
    List.drop_left' (length_encodeWord _)]
  have hfits : 0x20 + 32 + 32 * numSamples
      ≤ (encodeWord 0x20 ++ (encodeWord numSamples ++ encodeWords amounts)).length := by
    simp only [List.length_append, length_encodeWord, length_encodeWords, hlength]
    omega
  rw [if_pos hfits]
  have hdecoded := decodeWords_encodeWords hwords []
  rw [List.append_nil, hlength] at hdecoded
  rw [hdecoded]

/-- The amounts in data are determined by it. -/
theorem EndsInAmounts.unique {numSamples : ℕ} (hsamples : numSamples < 2 ^ 256) {data : Bytes}
    {amounts amounts' : List ℕ} (h : EndsInAmounts numSamples data amounts)
    (h' : EndsInAmounts numSamples data amounts') : amounts = amounts' := by
  have heq := (getAmounts_eq hsamples h).symm.trans (getAmounts_eq hsamples h')
  exact Except.ok.inj heq

/-- From some turn of the loop of `writeAmounts` on: the words left to write take the place of as
many words at the end. -/
theorem writeAmounts_from (total : ℕ) (rest : List ℕ) (i : ℕ) (hrest : i + rest.length = total)
    (data : Bytes) (hdata : 32 * total ≤ data.length) :
    (rest.zipIdx i).foldl (fun data (amount, i) =>
        storeWord data (data.length - 32 * (total - i - 1) - 32) amount) data
      = data.take (data.length - 32 * rest.length) ++ encodeWords rest := by
  induction rest generalizing i data with
  | nil =>
    simp [encodeWords]
  | cons amount rest ih =>
    rw [List.length_cons] at hrest
    have hoffset :
        data.length - 32 * (total - i - 1) - 32 = data.length - 32 * (rest.length + 1) := by
      omega
    have hfits : data.length - 32 * (rest.length + 1) + 32 ≤ data.length := by omega
    have hlength := length_storeWord hfits amount
    have hlast : data.length - 32 * rest.length = data.length - 32 * (rest.length + 1) + 32 := by
      omega
    rw [List.zipIdx_cons, List.foldl_cons]
    dsimp only
    rw [hoffset, ih (i + 1) (by omega) _ (by omega), hlength, hlast, take_storeWord hfits,
      List.append_assoc]
    rfl

/-- Call data whose last words are the amounts. -/
def fed (callData : Bytes) (amounts : List ℕ) : Bytes :=
  callData.take (callData.length - 32 * amounts.length) ++ encodeWords amounts

/-- The amounts are written to the last words, and nothing before them changes. -/
theorem writeAmounts_eq {data : Bytes} {amounts : List ℕ}
    (h : 32 * amounts.length ≤ data.length) : writeAmounts data amounts = fed data amounts :=
  writeAmounts_from amounts.length amounts 0 (Nat.zero_add _) data h

/-! ## The winner of a hop -/

/-- The amount for the largest sample. -/
def lastAmount (amounts : List ℕ) : ℕ := amounts.getLastD 0

/-- The outcomes of calls, from a first one on. -/
def outcomesFrom (call : ℕ → Bytes → SamplerCallResult) : ℕ → List Bytes → List SamplerCallResult
  | _, [] => []
  | i, callData :: callDatas => call i callData :: outcomesFrom call (i + 1) callDatas

/-- A call that succeeded, its data and its amounts. -/
structure Quotes (numSamples : ℕ) (outcomes : List SamplerCallResult) (i : ℕ) (data : Bytes)
    (amounts : List ℕ) : Prop where
  outcome : outcomes[i]? = some { data, success := true }
  ends : EndsInAmounts numSamples data amounts

/-- The first of the best calls: the index, the data and the amounts are all its own. -/
structure Winner (beats : ℕ → ℕ → Bool) (sentinel numSamples : ℕ)
    (outcomes : List SamplerCallResult) (kept : Kept) : Prop where
  quotes : Quotes numSamples outcomes kept.hop.sourceIndex kept.hop.returnData kept.amounts
  qualifies : beats (lastAmount kept.amounts) sentinel = true
  best : ∀ i data amounts, Quotes numSamples outcomes i data amounts →
    beats (lastAmount amounts) (lastAmount kept.amounts) = false
  earliest : ∀ i data amounts, Quotes numSamples outcomes i data amounts →
    i < kept.hop.sourceIndex → beats (lastAmount amounts) sentinel = true →
      beats (lastAmount kept.amounts) (lastAmount amounts) = true

/-- No call qualifies. -/
def NoneQualifies (beats : ℕ → ℕ → Bool) (sentinel numSamples : ℕ)
    (outcomes : List SamplerCallResult) : Prop :=
  ∀ i data amounts, Quotes numSamples outcomes i data amounts →
    beats (lastAmount amounts) sentinel = false

/-- What is kept at the start. -/
def Kept.start (sentinel numSamples : ℕ) : Kept :=
  { hop := .zero, amounts := List.replicate numSamples sentinel }

/-- What is kept of some outcomes: the winner, or what was kept at the start. -/
def KeptBest (beats : ℕ → ℕ → Bool) (sentinel numSamples : ℕ)
    (outcomes : List SamplerCallResult) (kept : Kept) : Prop :=
  NoneQualifies beats sentinel numSamples outcomes ∧ kept = .start sentinel numSamples ∨
    Winner beats sentinel numSamples outcomes kept

/-- All calls that succeed return data that ends in amounts. -/
def AllEndInAmounts (numSamples : ℕ) (outcomes : List SamplerCallResult) : Prop :=
  ∀ outcome ∈ outcomes, outcome.success = true →
    ∃ amounts, EndsInAmounts numSamples outcome.data amounts

/-- What comparing by amounts relies on. -/
structure Comparison (beats : ℕ → ℕ → Bool) : Prop where
  irrefl : ∀ a, beats a a = false
  trans : ∀ {a b c}, beats a b = true → beats b c = true → beats a c = true
  /-- What does not beat an amount does not beat a better one. -/
  not_beats : ∀ {a b c}, beats a b = true → beats c b = false → beats c a = false
  /-- What does not beat an amount, although it beats some, is beaten by a better one. -/
  beats_of_not : ∀ {a b c s}, beats a b = true → beats c b = false → beats c s = true →
    beats a c = true

theorem beatsSell_comparison : Comparison beatsSell := by
  constructor <;> simp only [beatsSell, decide_eq_true_eq, decide_eq_false_iff_not] <;> omega

theorem beatsBuy_comparison : Comparison beatsBuy := by
  constructor <;> simp only [beatsBuy, decide_eq_true_eq, decide_eq_false_iff_not] <;> omega

section Hop

variable {beats : ℕ → ℕ → Bool} {sentinel numSamples : ℕ} {outcomes : List SamplerCallResult}
  {kept : Kept}

theorem quotes_concat {outcome : SamplerCallResult} {i : ℕ} {data : Bytes} {amounts : List ℕ} :
    Quotes numSamples (outcomes ++ [outcome]) i data amounts ↔
      Quotes numSamples outcomes i data amounts ∨
        i = outcomes.length ∧ outcome = { data, success := true } ∧
          EndsInAmounts numSamples data amounts := by
  constructor
  · rintro ⟨houtcome, hends⟩
    rcases Nat.lt_trichotomy i outcomes.length with hlt | rfl | hgt
    · rw [List.getElem?_append_left hlt] at houtcome
      exact .inl ⟨houtcome, hends⟩
    · rw [List.getElem?_concat_length] at houtcome
      exact .inr ⟨rfl, Option.some.inj houtcome, hends⟩
    · rw [List.getElem?_eq_none (by rw [List.length_append, List.length_singleton]; omega)]
        at houtcome
      cases houtcome
  · rintro (⟨houtcome, hends⟩ | ⟨rfl, rfl, hends⟩)
    · obtain ⟨hlt, _⟩ := List.getElem?_eq_some_iff.mp houtcome
      exact ⟨by rw [List.getElem?_append_left hlt, houtcome], hends⟩
    · exact ⟨List.getElem?_concat_length, hends⟩

theorem Quotes.lt {i : ℕ} {data : Bytes} {amounts : List ℕ}
    (h : Quotes numSamples outcomes i data amounts) : i < outcomes.length :=
  (List.getElem?_eq_some_iff.mp h.outcome).1

theorem lastAmount_start (hpos : 0 < numSamples) :
    lastAmount (Kept.start sentinel numSamples).amounts = sentinel := by
  obtain ⟨n, rfl⟩ := Nat.exists_eq_add_one.mpr hpos
  unfold lastAmount Kept.start
  rw [List.getLastD_eq_getLast?, List.getLast?_replicate]
  rfl

theorem KeptBest.length_amounts (h : KeptBest beats sentinel numSamples outcomes kept) :
    kept.amounts.length = numSamples := by
  rcases h with ⟨_, rfl⟩ | hwinner
  · exact List.length_replicate
  · exact hwinner.quotes.ends.length_eq

variable (hpos : 0 < numSamples) (hsamples : numSamples < 2 ^ 256)
  (h : KeptBest beats sentinel numSamples outcomes kept) {outcome : SamplerCallResult}

include hpos h

/-- One more outcome that does not beat what is kept. -/
theorem KeptBest.concat_worse
    (hworse : ∀ amounts, outcome.success = true → EndsInAmounts numSamples outcome.data amounts →
      beats (lastAmount amounts) (lastAmount kept.amounts) = false) :
    KeptBest beats sentinel numSamples (outcomes ++ [outcome]) kept := by
  rcases h with ⟨hnone, rfl⟩ | hwinner
  · refine .inl ⟨fun i data amounts hquotes => ?_, rfl⟩
    rcases quotes_concat.mp hquotes with hold | ⟨_, rfl, hends⟩
    · exact hnone i data amounts hold
    · have hnew := hworse amounts rfl hends
      rwa [lastAmount_start hpos] at hnew
  · refine .inr ⟨quotes_concat.mpr (.inl hwinner.quotes), hwinner.qualifies, ?_, ?_⟩
    · intro i data amounts hquotes
      rcases quotes_concat.mp hquotes with hold | ⟨_, rfl, hends⟩
      · exact hwinner.best i data amounts hold
      · exact hworse amounts rfl hends
    · intro i data amounts hquotes hlt
      rcases quotes_concat.mp hquotes with hold | ⟨rfl, _, _⟩
      · exact hwinner.earliest i data amounts hold hlt
      · exact absurd hwinner.quotes.lt (Nat.lt_asymm hlt)

include hsamples in
/-- One more outcome that beats what is kept takes its place. -/
theorem KeptBest.concat_better (hcompare : Comparison beats) {data : Bytes} {amounts : List ℕ}
    (hends : EndsInAmounts numSamples data amounts)
    (hbeats : beats (lastAmount amounts) (lastAmount kept.amounts) = true) :
    KeptBest beats sentinel numSamples (outcomes ++ [{ data, success := true }])
      { hop := ⟨outcomes.length, data⟩, amounts } := by
  have hqualifies : beats (lastAmount amounts) sentinel = true := by
    rcases h with ⟨_, rfl⟩ | hwinner
    · rwa [lastAmount_start hpos] at hbeats
    · exact hcompare.trans hbeats hwinner.qualifies
  -- what came before does not beat what was kept
  have hold : ∀ i data amounts, Quotes numSamples outcomes i data amounts →
      beats (lastAmount amounts) (lastAmount kept.amounts) = false := by
    rcases h with ⟨hnone, rfl⟩ | hwinner
    · rw [lastAmount_start hpos]
      exact hnone
    · exact hwinner.best
  refine .inr ⟨quotes_concat.mpr (.inr ⟨rfl, rfl, hends⟩), hqualifies, ?_, ?_⟩
  · intro i data' amounts' hquotes
    rcases quotes_concat.mp hquotes with hbefore | ⟨_, hdata, hends'⟩
    · exact hcompare.not_beats hbeats (hold i data' amounts' hbefore)
    · cases hdata
      rw [hends.unique hsamples hends']
      exact hcompare.irrefl _
  · intro i data' amounts' hquotes hlt hqualifies'
    rcases quotes_concat.mp hquotes with hbefore | ⟨rfl, _, _⟩
    · exact hcompare.beats_of_not hbeats (hold i data' amounts' hbefore) hqualifies'
    · exact absurd hlt (Nat.lt_irrefl _)

end Hop

section Loop

variable {beats : ℕ → ℕ → Bool} (hcompare : Comparison beats) (sentinel : ℕ) {numSamples : ℕ}
  (hpos : 0 < numSamples) (hsamples : numSamples < 2 ^ 256)

theorem elementAt_last (hpos : 0 < numSamples) {amounts : List ℕ}
    (h : amounts.length = numSamples) :
    elementAt amounts (numSamples - 1) = .ok (lastAmount amounts) := by
  have hne : amounts ≠ [] := by
    rintro rfl
    exact hpos.ne h
  obtain ⟨init, last, rfl⟩ := (List.eq_nil_or_concat' amounts).resolve_left hne
  rw [List.length_append, List.length_singleton] at h
  unfold elementAt lastAmount
  rw [← h, Nat.add_sub_cancel, List.getElem?_concat_length, List.getLastD_concat]

include hcompare hpos hsamples

/-- The loop keeps the best call of those it has seen. -/
theorem sampleHop_keeps {sentinel : ℕ} (call : ℕ → Bytes → SamplerCallResult)
    (callDatas : List Bytes) {seen : List SamplerCallResult} {kept : Kept}
    (hseen : KeptBest beats sentinel numSamples seen kept)
    (hends : AllEndInAmounts numSamples (outcomesFrom call seen.length callDatas)) :
    ∃ kept', sampleHop beats call numSamples seen.length callDatas kept = .ok kept' ∧
      KeptBest beats sentinel numSamples (seen ++ outcomesFrom call seen.length callDatas)
        kept' := by
  induction callDatas generalizing seen kept with
  | nil =>
    refine ⟨kept, rfl, ?_⟩
    rw [outcomesFrom, List.append_nil]
    exact hseen
  | cons callData callDatas ih =>
    unfold AllEndInAmounts at hends
    rw [outcomesFrom, List.forall_mem_cons] at hends
    obtain ⟨hend, hrest⟩ := hends
    rw [outcomesFrom, sampleHop]
    generalize hresult : call seen.length callData = result at hend ⊢
    rw [← List.singleton_append, ← List.append_assoc]
    have hlength : (seen ++ [result]).length = seen.length + 1 := by
      rw [List.length_append, List.length_singleton]
    rw [← hlength] at hrest ⊢
    by_cases hsuccess : result.success = true
    · obtain ⟨amounts, hamounts⟩ := hend hsuccess
      dsimp only
      rw [if_pos hsuccess, getAmounts_eq hsamples hamounts, Fallible.ok_bind,
        elementAt_last hpos hamounts.length_eq, Fallible.ok_bind,
        elementAt_last hpos hseen.length_amounts, Fallible.ok_bind]
      by_cases hbeats : beats (lastAmount amounts) (lastAmount kept.amounts) = true
      · obtain ⟨data, success⟩ := result
        subst hsuccess
        rw [if_pos hbeats, List.take_of_length_le hamounts.length_eq.le]
        exact ih (hseen.concat_better hpos hsamples hcompare hamounts hbeats) hrest
      · rw [if_neg hbeats]
        apply ih (hseen.concat_worse hpos fun amounts' _ hamounts' => ?_) hrest
        rw [hamounts'.unique hsamples hamounts]
        exact Bool.eq_false_iff.mpr hbeats
    · rw [if_neg hsuccess]
      exact ih (hseen.concat_worse hpos fun _ h => absurd h hsuccess) hrest

/-- The loop over a hop's calls ends with the winner, or with what was kept at the start. -/
theorem sampleHop_best (call : ℕ → Bytes → SamplerCallResult) (callDatas : List Bytes)
    (hends : AllEndInAmounts numSamples (outcomesFrom call 0 callDatas)) :
    ∃ kept, sampleHop beats call numSamples 0 callDatas (.start sentinel numSamples) = .ok kept ∧
      KeptBest beats sentinel numSamples (outcomesFrom call 0 callDatas) kept := by
  have hseen : KeptBest beats sentinel numSamples [] (.start sentinel numSamples) := by
    refine .inl ⟨fun i data amounts hquotes => ?_, rfl⟩
    exact absurd hquotes.lt (Nat.not_lt_zero i)
  exact sampleHop_keeps hcompare hpos hsamples call callDatas hseen hends

end Loop

/-! ## Both hops -/

/-- The best call of the hop that is sampled first, and the best call of the other one, fed with
its amounts; where no call of a hop qualifies, what is kept at the start. -/
def BestTwoHop (beats : ℕ → ℕ → Bool) (sentinel numSamples : ℕ)
    (call : ℕ → Bytes → SamplerCallResult) (calls otherCalls : List Bytes) (hop otherHop : HopInfo)
    (amounts : List ℕ) : Prop :=
  NoneQualifies beats sentinel numSamples (outcomesFrom call 0 calls) ∧ hop = .zero ∧
      otherHop = .zero ∧ amounts = List.replicate numSamples sentinel ∨
    ∃ intermediateAmounts,
      Winner beats sentinel numSamples (outcomesFrom call 0 calls) ⟨hop, intermediateAmounts⟩ ∧
        KeptBest beats sentinel numSamples
          (outcomesFrom call calls.length
            (otherCalls.map fun callData => fed callData intermediateAmounts))
          ⟨otherHop, amounts⟩

theorem outcomesFrom_add (call : ℕ → Bytes → SamplerCallResult) (k i : ℕ) (callDatas : List Bytes) :
    outcomesFrom (fun i => call (k + i)) i callDatas = outcomesFrom call (k + i) callDatas := by
  induction callDatas generalizing i with
  | nil => rfl
  | cons callData callDatas ih => rw [outcomesFrom, ih, outcomesFrom, Nat.add_assoc]

/-- What is known of the calls: those that succeed return data that ends in amounts, whatever
amounts the calls of the other hop are fed with, and the call data of these has space for them. -/
structure Sampleable (numSamples : ℕ) (call : ℕ → Bytes → SamplerCallResult)
    (calls otherCalls : List Bytes) : Prop where
  ends : AllEndInAmounts numSamples (outcomesFrom call 0 calls)
  other_ends : ∀ amounts : List ℕ, amounts.length = numSamples →
    AllEndInAmounts numSamples
      (outcomesFrom call calls.length (otherCalls.map fun callData => fed callData amounts))
  space : ∀ callData ∈ otherCalls, 32 * numSamples ≤ callData.length

section TwoHop

variable {numSamples : ℕ} (hpos : 0 < numSamples) (hsamples : numSamples < 2 ^ 256)
  {call : ℕ → Bytes → SamplerCallResult} {calls otherCalls : List Bytes}
  (h : Sampleable numSamples call calls otherCalls)

include hpos hsamples h

/-- Both loops, in the order in which the hops are sampled. -/
theorem sampleHops {beats : ℕ → ℕ → Bool} (hcompare : Comparison beats) (sentinel : ℕ) :
    ∃ kept, sampleHop beats call numSamples 0 calls (.start sentinel numSamples) = .ok kept ∧
      elementAt kept.amounts (numSamples - 1) = .ok (lastAmount kept.amounts) ∧
        if lastAmount kept.amounts = sentinel then
          BestTwoHop beats sentinel numSamples call calls otherCalls kept.hop .zero
            (List.replicate numSamples sentinel)
        else
          ∃ other, sampleHop beats (fun i => call (calls.length + i)) numSamples 0
              (otherCalls.map fun callData => writeAmounts callData kept.amounts)
              (.start sentinel numSamples) = .ok other ∧
            BestTwoHop beats sentinel numSamples call calls otherCalls kept.hop other.hop
              other.amounts := by
  obtain ⟨kept, hkept, hbest⟩ := sampleHop_best hcompare sentinel hpos hsamples call calls h.ends
  have hlength := hbest.length_amounts
  refine ⟨kept, hkept, elementAt_last hpos hlength, ?_⟩
  rcases hbest with ⟨hnone, rfl⟩ | hwinner
  · rw [if_pos (lastAmount_start hpos)]
    exact .inl ⟨hnone, rfl, rfl, rfl⟩
  · have hne : lastAmount kept.amounts ≠ sentinel := by
      intro heq
      have hbeats := hwinner.qualifies
      rw [heq, hcompare.irrefl] at hbeats
      cases hbeats
    have hfed : (otherCalls.map fun callData => writeAmounts callData kept.amounts)
        = otherCalls.map fun callData => fed callData kept.amounts := by
      apply List.map_congr_left
      intro callData hmem
      apply writeAmounts_eq
      rw [hlength]
      exact h.space callData hmem
    have hshift := outcomesFrom_add call calls.length 0
      (otherCalls.map fun callData => fed callData kept.amounts)
    obtain ⟨other, hsampled, hother_best⟩ := sampleHop_best hcompare sentinel hpos hsamples
      (fun i => call (calls.length + i))
      (otherCalls.map fun callData => fed callData kept.amounts)
      (by rw [hshift]; exact h.other_ends kept.amounts hlength)
    rw [if_neg hne, hfed]
    rw [hshift] at hother_best
    exact ⟨other, hsampled, .inr ⟨kept.amounts, hwinner, hother_best⟩⟩

end TwoHop

section TwoHop

variable {numSamples : ℕ} (hpos : 0 < numSamples) (hsamples : numSamples < 2 ^ 256)
  {call : ℕ → Bytes → SamplerCallResult}

include hpos hsamples

theorem sampleTwoHopSell_best {firstHopCalls secondHopCalls : List Bytes}
    (h : Sampleable numSamples call firstHopCalls secondHopCalls) :
    ∃ firstHop secondHop buyAmounts,
      sampleTwoHopSell call firstHopCalls secondHopCalls numSamples =
          .ok (firstHop, secondHop, buyAmounts) ∧
        BestTwoHop beatsSell 0 numSamples call firstHopCalls secondHopCalls firstHop secondHop
          buyAmounts := by
  obtain ⟨first, hfirst, hlast, hbest⟩ := sampleHops hpos hsamples h beatsSell_comparison 0
  unfold sampleTwoHopSell
  dsimp only
  change sampleHop beatsSell call numSamples 0 firstHopCalls
    ⟨.zero, List.replicate numSamples 0⟩ = _ at hfirst
  rw [hfirst, Fallible.ok_bind, hlast, Fallible.ok_bind]
  split
  · rename_i hzero
    rw [if_pos hzero] at hbest
    exact ⟨_, _, _, rfl, hbest⟩
  · rename_i hne
    rw [if_neg hne] at hbest
    obtain ⟨second, hsecond, hbest⟩ := hbest
    change sampleHop beatsSell _ numSamples 0 _ ⟨.zero, List.replicate numSamples 0⟩ = _ at hsecond
    rw [hsecond, Fallible.ok_bind]
    exact ⟨_, _, _, rfl, hbest⟩

theorem sampleTwoHopBuy_best {firstHopCalls secondHopCalls : List Bytes}
    (h : Sampleable numSamples call secondHopCalls firstHopCalls) :
    ∃ firstHop secondHop sellAmounts,
      sampleTwoHopBuy call firstHopCalls secondHopCalls numSamples =
          .ok (firstHop, secondHop, sellAmounts) ∧
        BestTwoHop beatsBuy MAX_UINT256 numSamples call secondHopCalls firstHopCalls secondHop
          firstHop sellAmounts := by
  obtain ⟨second, hsecond, hlast, hbest⟩ :=
    sampleHops hpos hsamples h beatsBuy_comparison MAX_UINT256
  unfold sampleTwoHopBuy
  dsimp only
  change sampleHop beatsBuy call numSamples 0 secondHopCalls
    ⟨.zero, List.replicate numSamples MAX_UINT256⟩ = _ at hsecond
  rw [hsecond, Fallible.ok_bind, hlast, Fallible.ok_bind]
  split
  · rename_i hmax
    rw [if_pos hmax] at hbest
    exact ⟨_, _, _, rfl, hbest⟩
  · rename_i hne
    rw [if_neg hne] at hbest
    obtain ⟨first, hfirst, hbest⟩ := hbest
    change sampleHop beatsBuy _ numSamples 0 _ ⟨.zero, List.replicate numSamples MAX_UINT256⟩ = _
      at hfirst
    rw [hfirst, Fallible.ok_bind]
    exact ⟨_, _, _, rfl, hbest⟩

end TwoHop

/-- With an amount that is not the sentinel, both hops have a winner. -/
theorem BestTwoHop.winners {beats : ℕ → ℕ → Bool} {sentinel numSamples : ℕ}
    (hpos : 0 < numSamples) {call : ℕ → Bytes → SamplerCallResult} {calls otherCalls : List Bytes}
    {hop otherHop : HopInfo} {amounts : List ℕ}
    (h : BestTwoHop beats sentinel numSamples call calls otherCalls hop otherHop amounts)
    (hne : lastAmount amounts ≠ sentinel) :
    ∃ intermediateAmounts,
      Winner beats sentinel numSamples (outcomesFrom call 0 calls) ⟨hop, intermediateAmounts⟩ ∧
        Winner beats sentinel numSamples
          (outcomesFrom call calls.length
            (otherCalls.map fun callData => fed callData intermediateAmounts))
          ⟨otherHop, amounts⟩ := by
  have hstart : lastAmount (List.replicate numSamples sentinel) = sentinel :=
    lastAmount_start hpos
  rcases h with ⟨_, _, _, rfl⟩ | ⟨intermediateAmounts, hwinner, ⟨_, hkept⟩ | hother⟩
  · exact absurd hstart hne
  · obtain ⟨_, rfl⟩ := Kept.mk.inj hkept
    exact absurd hstart hne
  · exact ⟨intermediateAmounts, hwinner, hother⟩

/-- Both samplers return the best call of the hop that is sampled first and the best call of the
other one after it, and what is written to call data is its last words. -/
theorem twoHopSampler_spec {numSamples : ℕ} (hpos : 0 < numSamples)
    (hsamples : numSamples < 2 ^ 256) (call : ℕ → Bytes → SamplerCallResult)
    (firstHopCalls secondHopCalls : List Bytes) :
    (Sampleable numSamples call firstHopCalls secondHopCalls →
        ∃ firstHop secondHop buyAmounts,
          sampleTwoHopSell call firstHopCalls secondHopCalls numSamples =
              .ok (firstHop, secondHop, buyAmounts) ∧
            BestTwoHop beatsSell 0 numSamples call firstHopCalls secondHopCalls firstHop secondHop
              buyAmounts) ∧
      (Sampleable numSamples call secondHopCalls firstHopCalls →
        ∃ firstHop secondHop sellAmounts,
          sampleTwoHopBuy call firstHopCalls secondHopCalls numSamples =
              .ok (firstHop, secondHop, sellAmounts) ∧
            BestTwoHop beatsBuy MAX_UINT256 numSamples call secondHopCalls firstHopCalls secondHop
              firstHop sellAmounts) ∧
        ∀ (callData : Bytes) (amounts : List ℕ), amounts.length = numSamples →
          32 * numSamples ≤ callData.length →
            writeAmounts callData amounts =
              callData.take (callData.length - 32 * numSamples) ++ encodeWords amounts := by
  refine ⟨sampleTwoHopSell_best hpos hsamples, sampleTwoHopBuy_best hpos hsamples, ?_⟩
  rintro callData amounts rfl hspace
  exact writeAmounts_eq hspace

/-- The encoding of one amount. -/
def quoteData (amount : ℕ) : Bytes := encodeWord 0x20 ++ (encodeWord 1 ++ encodeWord amount)

/-- The first call reverts, and the others quote 6, 7 and so on. -/
def quoteAfterRevert (i : ℕ) (_ : Bytes) : SamplerCallResult :=
  if i = 0 then { data := [], success := false } else { data := quoteData (5 + i), success := true }

theorem quoteAfterRevert_ends (i : ℕ) (callData : Bytes) (hi : 5 + i < 2 ^ 256)
    (h : (quoteAfterRevert i callData).success = true) :
    ∃ amounts, EndsInAmounts 1 (quoteAfterRevert i callData).data amounts := by
  unfold quoteAfterRevert at h ⊢
  split at h
  · cases h
  · rw [if_neg ‹_›]
    refine ⟨[5 + i], rfl, ?_, [], encodeWord 0x20, length_encodeWord _, ?_⟩
    · rw [List.forall_mem_singleton]
      omega
    · simp [quoteData, encodeWords]

theorem twoHopSampler_spec_revert :
    sampleTwoHopSell quoteAfterRevert [[], []] [List.replicate 36 0] 1 =
        .ok (⟨1, quoteData 6⟩, ⟨0, quoteData 7⟩, [7]) ∧
      BestTwoHop beatsSell 0 1 quoteAfterRevert [[], []] [List.replicate 36 0]
        ⟨1, quoteData 6⟩ ⟨0, quoteData 7⟩ [7] := by
  have hvalue : sampleTwoHopSell quoteAfterRevert [[], []] [List.replicate 36 0] 1 =
      .ok (⟨1, quoteData 6⟩, ⟨0, quoteData 7⟩, [7]) := by
    decide +kernel
  obtain ⟨hsell, _⟩ := @twoHopSampler_spec 1 (by decide) (by decide)
    quoteAfterRevert [[], []] [List.replicate 36 0]
  obtain ⟨firstHop, secondHop, buyAmounts, hok, hbest⟩ := hsell (by
    refine ⟨?_, ?_, by decide⟩
    · intro outcome hmem
      simp only [outcomesFrom, List.mem_cons, List.not_mem_nil, or_false] at hmem
      rcases hmem with rfl | rfl
      · exact quoteAfterRevert_ends 0 _ (by decide)
      · exact quoteAfterRevert_ends 1 _ (by decide)
    · intro amounts _ outcome hmem
      simp only [outcomesFrom, List.map_cons, List.map_nil, List.mem_cons, List.not_mem_nil,
        or_false] at hmem
      subst hmem
      exact quoteAfterRevert_ends 2 _ (by decide))
  rw [hvalue] at hok
  cases hok
  exact ⟨hvalue, hbest⟩

end ZeroExApi.TwoHopSampler
