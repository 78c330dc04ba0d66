/-
# ZeroExApi.ElasticPaths — which exact-output quotes of Kyber Elastic can be delivered

A quote for exact outputs goes through the pools of a path backwards, and a quote for an exact input
through the same pools forwards, in the same directions.  What is noted for an output is what its
stand-in costs, pool by pool (`quoteOutputPath_costs`); an input of what an output costs, if every
pool gives it, comes back as that output (`quoteInputPath_reversed`).

So the quotes can be delivered exactly if a pool of the path is dry, and nothing is quoted, or every
output can be had before the price limits and none that is larger follows a repeated one
(`quotesDeliverable_iff`).
-/

import ZeroExApi.ElasticQuotes
import ZeroExApi.ElasticStraight

namespace ZeroExApi.KyberElastic

open ZeroExApi.Lib ZeroExApi.Lib.Fallible
open ZeroExApi.MultiQuoter (Revert TickMath PathPool checkedInt256 checkedInt256_eq_ok monotone
  monotone_iff turnsFor specified fits_specified stalled stalled_cons stalled_of_ne stalled_stalled
  stalled_of_forall_eq sorted_stalled length_stalled mem_of_mem_stalled mem_stalled_repeated)

/-! ## Hops -/

section Hops

variable (lib : Library) (factory : Factory) (curve : ℕ → Bool → Curve ℕ) (hop : PathPool)

/-- The direction that the price of a hop goes in. -/
def hopUp : Bool := decide (hop.tokenA < hop.tokenB)

/-- The pool of a hop. -/
def hopPool : Pool := factory hop.tokenB hop.tokenA hop.fee

/-- The chain that a hop is. -/
def hopTrack : Chain ℕ :=
  track lib.tickMath (hopPool factory hop) (hopUp hop)
    (curve (hopPool factory hop).swapFeeUnits (hopUp hop))

/-- How far a hop goes. -/
def hopLimit : ℤ := ahead (hopUp hop) (limitOf lib.tickMath (hopUp hop))

/-- The swap for exact outputs. -/
def outputSwap : Swap := ⟨hopPool factory hop, hopUp hop, false, limitOf lib.tickMath (hopUp hop)⟩

/-- The swap for an exact input, the other way round. -/
def inputSwap : Swap := ⟨hopPool factory hop, !hopUp hop, true, limitOf lib.tickMath (hopUp hop)⟩

theorem outputSwap_up : (outputSwap lib factory hop).willUpTick = hopUp hop := by
  show (false != hopUp hop) = _
  cases hopUp hop <;> rfl

theorem inputSwap_up : (inputSwap lib factory hop).willUpTick = hopUp hop := by
  show (true != !hopUp hop) = _
  cases hopUp hop <;> rfl

end Hops

section Quotes

variable {lib : Library} {factory : Factory} {curve : ℕ → Bool → Curve ℕ} (hlib : lib.Lawful)
  (hcurve : ∀ fee up, ExactStep lib fee up (curve fee up)) {hop : PathPool}
  (hpool : (hopPool factory hop).Sound lib.tickMath)

include hlib hcurve hpool

theorem outputSwap_lawful : (outputSwap lib factory hop).Lawful lib
    (curve (hopPool factory hop).swapFeeUnits (hopUp hop)) where
  library := hlib
  pool := hpool
  step := by
    rw [outputSwap_up]
    exact hcurve _ _
  limit := by
    rw [outputSwap_up]
    rfl

theorem inputSwap_lawful : (inputSwap lib factory hop).Lawful lib
    (curve (hopPool factory hop).swapFeeUnits (hopUp hop)) where
  library := hlib
  pool := hpool
  step := by
    rw [inputSwap_up]
    exact hcurve _ _
  limit := by
    rw [inputSwap_up]
    rfl

omit hlib hcurve hpool in
/-- A valid limit is ahead. -/
theorem ahead_lt_of_validLimit {swap : Swap} {tickMath : TickMath}
    (hvalid : validLimit tickMath swap = true) :
    ahead swap.willUpTick swap.pool.sqrtP < ahead swap.willUpTick swap.limitSqrtP := by
  unfold validLimit at hvalid
  cases hup : swap.willUpTick with
  | true =>
    rw [hup, if_pos rfl, Bool.and_eq_true, decide_eq_true_iff] at hvalid
    have hlt := hvalid.1
    show (swap.pool.sqrtP : ℤ) < swap.limitSqrtP
    omega
  | false =>
    rw [hup, if_neg Bool.false_ne_true, Bool.and_eq_true, decide_eq_true_iff] at hvalid
    have hlt := hvalid.1
    show -(swap.pool.sqrtP : ℤ) < -swap.limitSqrtP
    omega

omit hlib hcurve hpool in
/-- A limit that is ahead is valid. -/
theorem validLimit_of_ahead_lt {swap : Swap} {curve : Curve ℕ} (h : swap.Lawful lib curve)
    (hlt : ahead swap.willUpTick swap.pool.sqrtP < ahead swap.willUpTick swap.limitSqrtP) :
    validLimit lib.tickMath swap = true := by
  have hprice := h.pool.inTick.price_lt
  unfold validLimit
  cases hup : swap.willUpTick with
  | true =>
    have hlimit := limit_up h hup
    rw [hup] at hlt
    change (swap.pool.sqrtP : ℤ) < swap.limitSqrtP at hlt
    rw [if_pos rfl, Bool.and_eq_true, decide_eq_true_iff, decide_eq_true_iff]
    omega
  | false =>
    have hlimit := limit_down h hup
    rw [hup] at hlt
    change -(swap.pool.sqrtP : ℤ) < -swap.limitSqrtP at hlt
    rw [if_neg Bool.false_ne_true, Bool.and_eq_true, decide_eq_true_iff, decide_eq_true_iff]
    omega

/-- What `multiswap` notes for exact outputs is what their stand-ins cost. -/
theorem multiswap_costs {amounts : List ℕ} (hpos : ∀ a ∈ amounts, 0 < a)
    (hsorted : amounts.Pairwise (· ≤ ·)) (hwords : ∀ a ∈ amounts, a < 2 ^ 255)
    {results : List (ℤ × ℤ)}
    (hswap : multiswap lib (hopPool factory hop) (hopUp hop) (amounts.map (specified false))
      (limitOf lib.tickMath (hopUp hop)) = .ok results) :
    List.Forall₂ (Costs (hopTrack lib factory curve hop) (hopLimit lib hop)) (stalled amounts)
      (results.map (readPaid (hopUp hop))) := by
  have hlawful := outputSwap_lawful hlib hcurve hpool
  cases amounts with
  | nil => cases hswap
  | cons amount rest =>
    have hamount := hpos amount List.mem_cons_self
    -- an amount below zero stands for an exact output
    have hkind : decide (specified false amount > 0) = false := by
      apply decide_eq_false
      show ¬ -(amount : ℤ) > 0
      omega
    unfold multiswap at hswap
    rw [List.map_cons] at hswap
    dsimp only at hswap
    rw [hkind] at hswap
    change (if !validLimit lib.tickMath (outputSwap lib factory hop) then _ else
      multiswapLoop lib (outputSwap lib factory hop) _ (getInitialSwapData (hopPool factory hop)
        (outputSwap lib factory hop).willUpTick (specified false amount)) (specified false amount)
        (rest.map (specified false))) = Except.ok results at hswap
    split at hswap
    · cases hswap
    · rename_i hvalid
      rw [Bool.not_eq_true, Bool.not_eq_false'] at hvalid
      have hlimit := (ahead_lt_of_validLimit hvalid).le
      have hstart := start_at hlawful hlimit (specified false amount)
      have htotals := @start_totals lib (outputSwap lib factory hop) _
        (hcurve (hopPool factory hop).swapFeeUnits (hopUp hop)).exact (specified false amount)
      have hcosts := multiswapLoop_costs hlawful rfl hstart (by decide : FitsInt256 0) rfl
        (by rw [htotals.2, Nat.zero_add]) hamount hsorted hwords hswap
      unfold CostsOf Swap.track at hcosts
      rw [outputSwap_up] at hcosts
      exact hcosts

/-- What `multiswap` notes for an exact input of what an output costs is that output. -/
theorem multiswap_gives {received paid : ℕ} (hpos : 0 < received) (hword : received < 2 ^ 255)
    (h : Gives (hopTrack lib factory curve hop) (hopLimit lib hop) received paid) :
    multiswap lib (hopPool factory hop) (!hopUp hop) [specified true paid]
      (limitOf lib.tickMath (hopUp hop)) =
        .ok [noted (inputSwap lib factory hop) (specified true paid) (-received)] := by
  have hlawful := inputSwap_lawful hlib hcurve hpool
  have hexact : (hopTrack lib factory curve hop).curve.Exact := (hcurve _ _).exact
  obtain ⟨K, Z, hreach, hreceived, hpaid, hpaid_word⟩ := h
  have hpaid_pos : 0 < paid := by
    have hiff := hreach.paidAt_eq_zero_iff hexact
    omega
  have hkind : decide (specified true paid > 0) = true := decide_eq_true (by
    show (paid : ℤ) > 0
    omega)
  -- something is received before the limit, so the limit is ahead
  have hlimit : ahead (hopUp hop) (hopPool factory hop).sqrtP < hopLimit lib hop := by
    by_contra hnot
    have hgrow := Chain.growTogether_of_right hexact hreach.on hreach.on.start
      (hreach.le_limit.trans (not_lt.mp hnot))
    have htotals := totals_start hexact
    have hle := hgrow.received_le
    omega
  have hvalid : validLimit lib.tickMath (inputSwap lib factory hop) = true := by
    apply validLimit_of_ahead_lt hlawful
    rw [inputSwap_up]
    exact hlimit
  have hstart := start_at hlawful (ahead_lt_of_validLimit hvalid).le (specified true paid)
  have htotals := @start_totals lib (inputSwap lib factory hop) _
    (hcurve (hopPool factory hop).swapFeeUnits (hopUp hop)).exact (specified true paid)
  have hturns := (ticksLeft_mem hstart [specified true paid].length).2
  have htrack : (inputSwap lib factory hop).track lib
      (curve (hopPool factory hop).swapFeeUnits (hopUp hop)) = hopTrack lib factory curve hop := by
    unfold Swap.track
    rw [inputSwap_up]
    rfl
  have hloop := multiswapLoop_gives hlawful rfl
    (show Reach _ (ahead (inputSwap lib factory hop).willUpTick _) K Z by
      rw [htrack, inputSwap_up]
      exact hreach)
    (by rw [htrack, hpaid]) hpaid_word (by rw [htrack, hreceived]; exact hword) hstart rfl
    (by rw [htotals.1, Nat.zero_add]) hpaid_pos
    hturns
  rw [htrack, hreceived] at hloop
  unfold multiswap
  dsimp only
  rw [hkind]
  show (if !validLimit lib.tickMath (inputSwap lib factory hop) then _ else
    multiswapLoop lib (inputSwap lib factory hop) _ (getInitialSwapData (hopPool factory hop)
      (inputSwap lib factory hop).willUpTick (specified true paid)) (specified true paid) [])
      = _
  rw [hvalid, if_neg (by decide)]
  exact hloop

end Quotes

/-! ## The quote for exact outputs -/

section Outputs

variable (lib : Library) (factory : Factory) (curve : ℕ → Bool → Curve ℕ)

/-- Nothing is received from the pool of a hop. -/
def HopDry (hop : PathPool) : Prop := Dry (hopTrack lib factory curve hop) (hopLimit lib hop)

/-- So much is received at the end of a path for so much. -/
def Delivers : List PathPool → ℕ → ℕ → Prop
  | [], received, paid => paid = received
  | hop :: path, received, paid =>
    ∃ between, Gives (hopTrack lib factory curve hop) (hopLimit lib hop) received between ∧
      Delivers path between paid

/-- What is noted for an output along a path. -/
def PathCosts : List PathPool → ℕ → ℕ → Prop
  | [], received, paid => paid = received
  | hop :: path, received, paid =>
    ∃ between, Costs (hopTrack lib factory curve hop) (hopLimit lib hop) received between ∧
      PathCosts path between paid

variable {lib factory curve} {hop : PathPool} {path : List PathPool}
  {amounts amountsIn : List ℕ}

/-- Outputs are negative amounts. -/
theorem mapM_specified (hwords : ∀ a ∈ amounts, a < 2 ^ 255) :
    (amounts.mapM fun a : ℕ => checkedInt256 (-int256 a)) =
      .ok (amounts.map (specified false)) := by
  rw [mapM_eq_ok_iff, List.forall₂_map_right_iff, List.forall₂_same]
  intro a ha
  have hword := hwords a ha
  rw [int256_of_fits ⟨by omega, by omega⟩]
  exact checkedInt256_eq_ok.mpr ⟨fits_specified false hword, rfl⟩

/-- The first pool of a path, and the rest of it. -/
theorem quoteOutputPath_cons (hwords : ∀ a ∈ amounts, a < 2 ^ 255)
    (hquote : quoteOutputPath lib factory (hop :: path) amounts = .ok amountsIn) :
    ∃ results, multiswap lib (hopPool factory hop) (hopUp hop) (amounts.map (specified false))
        (limitOf lib.tickMath (hopUp hop)) = .ok results ∧
      (path = [] ∧ amountsIn = results.map (readPaid (hopUp hop)) ∨
        path ≠ [] ∧
          quoteOutputPath lib factory path (results.map (readPaid (hopUp hop))) =
            .ok amountsIn) := by
  unfold quoteOutputPath at hquote
  dsimp only at hquote
  rw [mapM_specified hwords, ok_bind] at hquote
  obtain ⟨results, hswap, hrest⟩ := bind_eq_ok.mp hquote
  refine ⟨results, hswap, ?_⟩
  cases path with
  | nil =>
    left
    cases hrest
    exact ⟨rfl, rfl⟩
  | cons next path => exact .inr ⟨List.cons_ne_nil _ _, hrest⟩

/-- An output of nothing is noted to cost nothing. -/
theorem multiswap_zero (hzero : ∀ a ∈ amounts, a = 0) {results : List (ℤ × ℤ)}
    (hswap : multiswap lib (hopPool factory hop) (hopUp hop) (amounts.map (specified false))
      (limitOf lib.tickMath (hopUp hop)) = .ok results) :
    ∀ c ∈ results.map (readPaid (hopUp hop)), c = 0 := by
  cases amounts with
  | nil => cases hswap
  | cons amount rest =>
    have hamount := hzero amount List.mem_cons_self
    subst hamount
    unfold multiswap at hswap
    rw [List.map_cons] at hswap
    change (if !validLimit lib.tickMath (outputSwap lib factory hop) then _ else
      multiswapLoop lib (outputSwap lib factory hop) (_ + 1) (getInitialSwapData _ _ 0) _ _)
        = Except.ok results at hswap
    split at hswap
    · cases hswap
    · unfold multiswapLoop at hswap
      rw [if_pos (.inl rfl)] at hswap
      have hread := notedRest_readPaid rfl hswap
      change results.map (readPaid (hopUp hop)) = _ at hread
      rw [hread]
      intro c hc
      obtain ⟨_, _, rfl⟩ := List.mem_map.mp hc
      rfl

/-- Something is quoted for every amount. -/
theorem length_quoteOutputPath (hquote : quoteOutputPath lib factory path amounts = .ok amountsIn) :
    amountsIn.length = amounts.length := by
  induction path generalizing amounts with
  | nil => cases hquote
  | cons hop path ih =>
    unfold quoteOutputPath at hquote
    obtain ⟨amounts', hamounts, hquote⟩ := bind_eq_ok.mp hquote
    obtain ⟨results, hswap, hrest⟩ := bind_eq_ok.mp hquote
    have hlength := (mapM_eq_ok_iff.mp hamounts).length_eq
    have hresults := length_multiswap hswap
    change (if path.isEmpty then Except.ok (results.map (readPaid (hopUp hop)))
      else quoteOutputPath lib factory path (results.map (readPaid (hopUp hop)))) = _ at hrest
    split at hrest
    · cases hrest
      rw [List.length_map, hresults, hlength]
    · rw [ih hrest, List.length_map, hresults, hlength]

theorem quoteOutputPath_zero (hzero : ∀ a ∈ amounts, a = 0)
    (hquote : quoteOutputPath lib factory path amounts = .ok amountsIn) :
    ∀ c ∈ amountsIn, c = 0 := by
  induction path generalizing amounts with
  | nil => cases hquote
  | cons hop path ih =>
    have hwords : ∀ a ∈ amounts, a < 2 ^ 255 := by
      intro a ha
      rw [hzero a ha]
      decide
    obtain ⟨results, hswap, hrest⟩ := quoteOutputPath_cons hwords hquote
    have hnone := multiswap_zero hzero hswap
    rcases hrest with ⟨_, rfl⟩ | ⟨_, hrest⟩
    · exact hnone
    · exact ih hnone hrest

/-! ### What is handed on -/

/-- What the stand-ins cost stands for itself: a cost that is repeated is that of a repeated output,
or of outputs that are not received. -/
theorem stalled_of_costs {C : Chain ℕ} {limit : ℤ} (hexact : C.curve.Exact) {bs cs : List ℕ}
    (hsorted : bs.Pairwise (· ≤ ·)) (hbs : stalled bs = bs)
    (h : List.Forall₂ (Costs C limit) bs cs) : stalled cs = cs := by
  induction bs generalizing cs with
  | nil =>
    cases h
    rfl
  | cons a rest ih =>
    cases rest with
    | nil =>
      cases h with
      | cons hfirst h =>
        cases h
        rfl
    | cons b rest =>
      cases h with
      | @cons _ c _ cs hfirst h =>
        cases cs with
        | nil => cases h
        | cons d cs =>
          have hsecond := (List.forall₂_cons.mp h).1
          obtain ⟨hle, hsorted'⟩ := List.pairwise_cons.mp hsorted
          have hab := hle b List.mem_cons_self
          by_cases hrepeated : d = c
          · subst hrepeated
            apply stalled_of_forall_eq
            intro e he
            obtain ⟨b', hb', hcost⟩ := exists_of_mem_right h he
            rcases hab.eq_or_lt with rfl | hlt
            · -- only the repeated output follows
              have hmem : b' ∈ stalled (a :: a :: rest) := by
                rw [hbs]
                exact List.mem_cons_of_mem _ hb'
              rw [mem_stalled_repeated hmem] at hcost
              exact hcost.unique hexact hfirst
            · have hge : b ≤ b' := by
                rcases List.mem_cons.mp hb' with rfl | hb'
                · exact le_rfl
                · exact (List.pairwise_cons.mp hsorted').1 b' hb'
              exact hfirst.eq_of_repeated hexact hlt hge hsecond hcost
          · have hne : b ≠ a := by
              rintro rfl
              exact hrepeated (hsecond.unique hexact hfirst)
            rw [stalled_of_ne rest hne] at hbs
            rw [stalled_of_ne cs hrepeated, ih hsorted' (List.tail_eq_of_cons_eq hbs) h]

variable (hlib : lib.Lawful) (hcurve : ∀ fee up, ExactStep lib fee up (curve fee up))
  (hpools : ∀ hop ∈ path, (hopPool factory hop).Sound lib.tickMath)
  (hpos : ∀ a ∈ amounts, 0 < a) (hsorted : amounts.Pairwise (· ≤ ·))
  (hwords : ∀ a ∈ amounts, a < 2 ^ 255)

/-- The outputs that a pool hands on. -/
structure HandsOn (lib : Library) (factory : Factory) (curve : ℕ → Bool → Curve ℕ)
    (hop : PathPool) (amounts amounts' : List ℕ) : Prop where
  costs : List.Forall₂ (Costs (hopTrack lib factory curve hop) (hopLimit lib hop))
    (stalled amounts) amounts'
  stalled_eq : stalled amounts' = amounts'
  sorted : amounts'.Pairwise (· ≤ ·)
  words : ∀ c ∈ amounts', c < 2 ^ 255

include hlib hcurve hpos hsorted hwords in
theorem handsOn (hpool : (hopPool factory hop).Sound lib.tickMath) {results : List (ℤ × ℤ)}
    (hswap : multiswap lib (hopPool factory hop) (hopUp hop) (amounts.map (specified false))
      (limitOf lib.tickMath (hopUp hop)) = .ok results) :
    HandsOn lib factory curve hop amounts (results.map (readPaid (hopUp hop))) := by
  have hexact : (hopTrack lib factory curve hop).curve.Exact := (hcurve _ _).exact
  have hcosts := multiswap_costs hlib hcurve hpool hpos hsorted hwords hswap
  have hsorted' := sorted_stalled hsorted
  refine ⟨hcosts, stalled_of_costs hexact hsorted' (stalled_stalled amounts) hcosts,
    pairwise_of_forall₂ (fun hle h h' => h.mono hexact hle h') hcosts hsorted', ?_⟩
  intro c hc
  obtain ⟨b, _, hcost⟩ := exists_of_mem_right hcosts hc
  rcases hcost with ⟨_, _, _, _, _, hword⟩ | ⟨_, _, _, _, hword⟩
  · exact hword
  · exact hword

include hcurve hpos in
/-- A hop that is not dry hands on something for something. -/
theorem HandsOn.pos {amounts' : List ℕ} (h : HandsOn lib factory curve hop amounts amounts')
    (hdry : ¬ HopDry lib factory curve hop) : ∀ c ∈ amounts', 0 < c := by
  have hexact : (hopTrack lib factory curve hop).curve.Exact := (hcurve _ _).exact
  intro c hc
  obtain ⟨b, hb, hcost⟩ := exists_of_mem_right h.costs hc
  exact hcost.pos hexact hdry (hpos b (mem_of_mem_stalled hb))

include hlib hcurve hpools hpos hsorted hwords in
/-- Along a path that is not dry, an amount is noted to be what its stand-in costs. -/
theorem quoteOutputPath_costs (hdry : ∀ hop ∈ path, ¬ HopDry lib factory curve hop)
    (hquote : quoteOutputPath lib factory path amounts = .ok amountsIn) :
    List.Forall₂ (PathCosts lib factory curve path) (stalled amounts) amountsIn := by
  induction path generalizing amounts with
  | nil => cases hquote
  | cons hop path ih =>
    obtain ⟨results, hswap, hrest⟩ := quoteOutputPath_cons hwords hquote
    have hhands := handsOn hlib hcurve hpos hsorted hwords (hpools hop List.mem_cons_self) hswap
    rcases hrest with ⟨rfl, rfl⟩ | ⟨_, hrest⟩
    · exact hhands.costs.imp fun b c hcost => ⟨c, hcost, rfl⟩
    · have hpos' := hhands.pos hcurve hpos (hdry hop List.mem_cons_self)
      have hpath := ih (fun hop' hmem => hpools hop' (List.mem_cons_of_mem _ hmem)) hpos'
        hhands.sorted hhands.words (fun hop' hmem => hdry hop' (List.mem_cons_of_mem _ hmem)) hrest
      rw [hhands.stalled_eq] at hpath
      exact forall₂_comp hhands.costs hpath

include hlib hcurve hpools hpos hsorted hwords in
/-- Through a dry pool nothing is noted to cost anything. -/
theorem quoteOutputPath_dry (hdry : ∃ hop ∈ path, HopDry lib factory curve hop)
    (hquote : quoteOutputPath lib factory path amounts = .ok amountsIn) :
    ∀ c ∈ amountsIn, c = 0 := by
  induction path generalizing amounts with
  | nil => cases hquote
  | cons hop path ih =>
    have hexact : (hopTrack lib factory curve hop).curve.Exact := (hcurve _ _).exact
    obtain ⟨results, hswap, hrest⟩ := quoteOutputPath_cons hwords hquote
    have hhands := handsOn hlib hcurve hpos hsorted hwords (hpools hop List.mem_cons_self) hswap
    by_cases hfirst : HopDry lib factory curve hop
    · have hnone : ∀ c ∈ results.map (readPaid (hopUp hop)), c = 0 := by
        intro c hc
        obtain ⟨b, _, hcost⟩ := exists_of_mem_right hhands.costs hc
        exact hcost.eq_zero hexact hfirst
      rcases hrest with ⟨_, rfl⟩ | ⟨_, hrest⟩
      · exact hnone
      · exact quoteOutputPath_zero hnone hrest
    · have hpos' := hhands.pos hcurve hpos hfirst
      have hdry' : ∃ hop' ∈ path, HopDry lib factory curve hop' := by
        obtain ⟨hop', hmem, hdry⟩ := hdry
        rcases List.mem_cons.mp hmem with rfl | hmem
        · exact absurd hdry hfirst
        · exact ⟨hop', hmem, hdry⟩
      rcases hrest with ⟨rfl, _⟩ | ⟨_, hrest⟩
      · obtain ⟨_, hmem, _⟩ := hdry'
        cases hmem
      · exact ih (fun hop' hmem => hpools hop' (List.mem_cons_of_mem _ hmem)) hpos' hhands.sorted
          hhands.words hdry' hrest

/-! ## The quote for an exact input -/

/-- A hop the other way round. -/
def turned (hop : PathPool) : PathPool := ⟨hop.tokenB, hop.tokenA, hop.fee⟩

theorem reversed_cons (hop : PathPool) (path : List PathPool) :
    reversed (hop :: path) = reversed path ++ [turned hop] := List.reverse_cons

theorem turned_isToken0 (htokens : hop.tokenA ≠ hop.tokenB) :
    decide ((turned hop).tokenA < (turned hop).tokenB) = !hopUp hop := by
  show decide (hop.tokenB < hop.tokenA) = !decide (hop.tokenA < hop.tokenB)
  rcases Nat.lt_or_gt_of_ne htokens with hlt | hlt
  · rw [decide_eq_true hlt, decide_eq_false (by omega)]
    rfl
  · rw [decide_eq_true hlt, decide_eq_false (by omega)]
    rfl

include hlib hcurve in
/-- An input of what an output costs comes back as that output, from one pool. -/
theorem quoteInputPath_turned (hpool : (hopPool factory hop).Sound lib.tickMath)
    (htokens : hop.tokenA ≠ hop.tokenB) {received paid : ℕ} (hpos : 0 < received)
    (hword : received < 2 ^ 255)
    (h : Gives (hopTrack lib factory curve hop) (hopLimit lib hop) received paid)
    (tail : List PathPool) :
    quoteInputPath lib factory (turned hop :: tail) [paid] =
      if tail.isEmpty then .ok [received] else quoteInputPath lib factory tail [received] := by
  have hswap := multiswap_gives hlib hcurve hpool hpos hword h
  have hpaid : int256 paid = specified true paid := by
    obtain ⟨_, _, _, _, _, hpaid_word⟩ := h
    exact int256_of_fits ⟨by omega, by omega⟩
  have hlimit : (if (!hopUp hop) = true then lib.tickMath.MIN_SQRT_RATIO + 1
      else lib.tickMath.MAX_SQRT_RATIO - 1) = limitOf lib.tickMath (hopUp hop) := by
    unfold limitOf
    cases hopUp hop <;> rfl
  have hread := @noted_received (inputSwap lib factory hop) rfl (specified true paid) (-received)
  change (if (!hopUp hop) = true then _ else _) = _ at hread
  have hchecked : checkedInt256 (received : ℤ) = .ok (received : ℤ) :=
    checkedInt256_eq_ok.mpr ⟨⟨by omega, by omega⟩, rfl⟩
  conv_lhs => unfold quoteInputPath
  dsimp only
  rw [turned_isToken0 htokens, List.map_singleton, hpaid, hlimit]
  change (multiswap lib (hopPool factory hop) _ _ _ >>= _) = _
  rw [hswap, ok_bind, List.mapM_cons, List.mapM_nil, hread, neg_neg, hchecked]
  show (if tail.isEmpty then Except.ok [uint256 received] else
    quoteInputPath lib factory tail [uint256 received]) = _
  rw [uint256_natCast (by omega)]

include hlib hcurve hpools in
/-- An input of what an output costs comes back as that output, along a path. -/
theorem quoteInputPath_reversed (htokens : ∀ hop ∈ path, hop.tokenA ≠ hop.tokenB)
    (hpath : path ≠ []) {received paid : ℕ} (hpos : 0 < received) (hword : received < 2 ^ 255)
    (h : Delivers lib factory curve path received paid) (tail : List PathPool) :
    quoteInputPath lib factory (reversed path ++ tail) [paid] =
      if tail.isEmpty then .ok [received] else quoteInputPath lib factory tail [received] := by
  induction path generalizing received tail with
  | nil => exact absurd rfl hpath
  | cons hop path ih =>
    obtain ⟨between, hgives, hdelivers⟩ := h
    have hfirst := quoteInputPath_turned hlib hcurve (hpools hop List.mem_cons_self)
      (htokens hop List.mem_cons_self) hpos hword hgives tail
    rw [reversed_cons, List.append_assoc, List.singleton_append]
    cases path with
    | nil =>
      cases hdelivers
      exact hfirst
    | cons next path =>
      have hexact : (hopTrack lib factory curve hop).curve.Exact := (hcurve _ _).exact
      have hbetween : 0 < between ∧ between < 2 ^ 255 := by
        obtain ⟨k, z, hreach, hreceived, rfl, hword'⟩ := hgives
        have hiff := hreach.paidAt_eq_zero_iff hexact
        exact ⟨by omega, hword'⟩
      rw [ih (fun hop' hmem => hpools hop' (List.mem_cons_of_mem _ hmem))
        (fun hop' hmem => htokens hop' (List.mem_cons_of_mem _ hmem)) (List.cons_ne_nil _ _)
        hbetween.1 hbetween.2 hdelivers (turned hop :: tail)]
      exact hfirst

end Outputs

/-! ## Quotes that can be delivered -/

section Deliverable

variable (lib : Library) (factory : Factory) (curve : ℕ → Bool → Curve ℕ) (path : List PathPool)

/-- An output can be had from the pools of a path, before their price limits. -/
def Reachable (amountOut : ℕ) : Prop := ∃ paid, Delivers lib factory curve path amountOut paid

/-- Quoted inputs deliver their outputs along the path, and outputs that cannot be had are not
quoted. -/
structure QuotesDeliverable (amountsOut amountsIn : List ℕ) : Prop where
  delivers : List.Forall₂ (fun amountOut amountIn => amountIn ≠ 0 →
    ∃ delivered, quoteExactMultiInput lib factory (reversed path) [amountIn] = .ok [delivered] ∧
      amountOut ≤ delivered) amountsOut amountsIn
  unreachable : List.Forall₂ (fun amountOut amountIn =>
    ¬ Reachable lib factory curve path amountOut → amountIn = 0) amountsOut amountsIn

/-- No other amount follows a repeated one. -/
def RepeatsLast (amounts : List ℕ) : Prop :=
  ∀ before a after, amounts = before ++ a :: a :: after → ∀ c ∈ after, c = a

theorem repeatsLast_cons {a b : ℕ} {rest : List ℕ} (hne : b ≠ a) :
    RepeatsLast (a :: b :: rest) ↔ RepeatsLast (b :: rest) := by
  constructor
  · intro h before c after heq
    exact h (a :: before) c after (congrArg (a :: ·) heq)
  · intro h before c after heq
    cases before with
    | nil =>
      obtain ⟨rfl, htail⟩ := List.cons.inj heq
      exact absurd (List.cons.inj htail).1 hne
    | cons x before => exact h before c after (List.cons.inj heq).2

/-- Where none follows a repeated one, the amounts stand for themselves. -/
theorem repeatsLast_iff {amounts : List ℕ} : RepeatsLast amounts ↔ stalled amounts = amounts := by
  induction amounts with
  | nil =>
    refine iff_of_true (fun before a after heq => ?_) rfl
    simp at heq
  | cons a rest ih =>
    cases rest with
    | nil =>
      refine iff_of_true (fun before b after heq => ?_) rfl
      have hlength := congrArg List.length heq
      simp only [List.length_append, List.length_cons, List.length_nil] at hlength
      omega
    | cons b rest =>
      by_cases hrepeated : b = a
      · subst hrepeated
        constructor
        · intro h
          have hall := h [] b rest rfl
          exact stalled_of_forall_eq fun c hc => by
            rcases List.mem_cons.mp hc with rfl | hc
            · rfl
            · exact hall c hc
        · intro h before c after heq d hd
          have hmem : ∀ e ∈ b :: b :: rest, e = b := fun e he =>
            mem_stalled_repeated (by rwa [h])
          have hc := hmem c (by simp [heq])
          have hd := hmem d (by simp [heq, hd])
          rw [hc, hd]
      · rw [repeatsLast_cons hrepeated, ih, stalled_of_ne rest hrepeated]
        constructor
        · exact congrArg (a :: ·)
        · intro h
          exact (List.cons.inj h).2

/-- A stand-in is no larger. -/
theorem stalled_le {amounts : List ℕ} (hsorted : amounts.Pairwise (· ≤ ·)) :
    List.Forall₂ (· ≤ ·) (stalled amounts) amounts := by
  induction amounts with
  | nil => exact .nil
  | cons a rest ih =>
    cases rest with
    | nil => exact .cons le_rfl .nil
    | cons b rest =>
      obtain ⟨hle, hsorted'⟩ := List.pairwise_cons.mp hsorted
      by_cases hrepeated : b = a
      · subst hrepeated
        have hstalled : stalled (b :: b :: rest) = b :: b :: rest.map fun _ => b := if_pos rfl
        rw [hstalled]
        refine .cons le_rfl (.cons le_rfl ?_)
        rw [List.forall₂_map_left_iff, List.forall₂_same]
        exact fun c hc => hle c (List.mem_cons_of_mem _ hc)
      · rw [stalled_of_ne rest hrepeated]
        exact .cons le_rfl (ih hsorted')

theorem eq_of_forall₂_le {as bs : List ℕ} (h : List.Forall₂ (· ≤ ·) as bs)
    (h' : List.Forall₂ (· ≤ ·) bs as) : as = bs := by
  induction h with
  | nil => rfl
  | cons hfirst _ ih =>
    cases h' with
    | cons hfirst' h' => rw [le_antisymm hfirst hfirst', ih h']

variable {lib factory curve path} {amountsOut amountsIn : List ℕ} (hlib : lib.Lawful)
  (hcurve : ∀ fee up, ExactStep lib fee up (curve fee up))

include hcurve in
theorem PathCosts.delivers {received paid paid' : ℕ}
    (h : PathCosts lib factory curve path received paid)
    (h' : Delivers lib factory curve path received paid') :
    Delivers lib factory curve path received paid := by
  induction path generalizing received with
  | nil => exact h
  | cons hop path ih =>
    obtain ⟨between, hcosts, hrest⟩ := h
    obtain ⟨between', hgives, hrest'⟩ := h'
    have hsame := hcosts.eq_of_gives (C := hopTrack lib factory curve hop) (hcurve _ _).exact hgives
    subst hsame
    exact ⟨between, hgives, ih hrest hrest'⟩

include hcurve in
theorem PathCosts.pos (hdry : ∀ hop ∈ path, ¬ HopDry lib factory curve hop) {received paid : ℕ}
    (hpos : 0 < received) (h : PathCosts lib factory curve path received paid) : 0 < paid := by
  induction path generalizing received with
  | nil =>
    cases h
    exact hpos
  | cons hop path ih =>
    obtain ⟨between, hcosts, hrest⟩ := h
    have hbetween := hcosts.pos (C := hopTrack lib factory curve hop) (hcurve _ _).exact
      (hdry hop List.mem_cons_self) hpos
    exact ih (fun hop' hmem => hdry hop' (List.mem_cons_of_mem _ hmem)) hbetween hrest

section Quoted

variable (hpools : ∀ hop ∈ path, (hopPool factory hop).Sound lib.tickMath)
  (htokens : ∀ hop ∈ path, hop.tokenA ≠ hop.tokenB) (hpos : ∀ a ∈ amountsOut, 0 < a)
  (hwords : ∀ a ∈ amountsOut, a < 2 ^ 255)
  (hquote : quoteExactMultiOutput lib factory path amountsOut = .ok amountsIn)

include hquote in
theorem quoteExactMultiOutput_ok : amountsOut.Pairwise (· ≤ ·) ∧ path ≠ [] ∧
    quoteOutputPath lib factory path amountsOut = .ok amountsIn := by
  unfold quoteExactMultiOutput at hquote
  split at hquote
  · cases hquote
  · rename_i hmonotone
    rw [Bool.not_eq_true, Bool.not_eq_false'] at hmonotone
    refine ⟨monotone_iff.mp hmonotone, ?_, hquote⟩
    rintro rfl
    cases hquote

include hlib hcurve hpools htokens hpos hwords hquote in
/-- Where all outputs can be had, the quoted inputs bring back the stand-ins. -/
theorem quotes_bring_back (hdry : ∀ hop ∈ path, ¬ HopDry lib factory curve hop)
    (hreachable : ∀ a ∈ amountsOut, Reachable lib factory curve path a) :
    List.Forall₂ (fun standIn amountIn => amountIn ≠ 0 ∧
      quoteExactMultiInput lib factory (reversed path) [amountIn] = .ok [standIn])
      (stalled amountsOut) amountsIn := by
  obtain ⟨hsorted, hpath, hquote⟩ := quoteExactMultiOutput_ok hquote
  have hcosts := quoteOutputPath_costs hlib hcurve hpools hpos hsorted hwords hdry hquote
  have hcosts := (List.forall₂_and_left (p := fun b => b ∈ amountsOut) _ _).mpr
    ⟨fun b hb => mem_of_mem_stalled hb, hcosts⟩
  refine hcosts.imp fun b c ⟨hb, hcost⟩ => ?_
  have hb_pos := hpos b hb
  have hpaid := hcost.pos hcurve hdry hb_pos
  obtain ⟨paid, hdelivers⟩ := hreachable b hb
  have hback := quoteInputPath_reversed hlib hcurve hpools htokens hpath hb_pos (hwords b hb)
    (hcost.delivers hcurve hdelivers) []
  rw [List.append_nil] at hback
  exact ⟨by omega, hback⟩

include hlib hcurve hpools htokens hpos hwords hquote in
/-- The quotes can be delivered exactly if a pool of the path is dry, or every output can be had and
none that is larger follows a repeated one. -/
theorem quotesDeliverable_iff :
    QuotesDeliverable lib factory curve path amountsOut amountsIn ↔
      (∃ hop ∈ path, HopDry lib factory curve hop) ∨
        (∀ a ∈ amountsOut, Reachable lib factory curve path a) ∧ RepeatsLast amountsOut := by
  obtain ⟨hsorted, hpath, hquoted⟩ := quoteExactMultiOutput_ok hquote
  by_cases hdry : ∃ hop ∈ path, HopDry lib factory curve hop
  · -- nothing is quoted
    have hzero := quoteOutputPath_dry hlib hcurve hpools hpos hsorted hwords hdry hquoted
    have hlength := length_quoteOutputPath hquoted
    refine iff_of_true ⟨?_, ?_⟩ (.inl hdry)
    · refine List.forall₂_iff_zip.mpr ⟨hlength.symm, fun {a c} hmem hsome => ?_⟩
      exact absurd (hzero c (List.of_mem_zip hmem).2) hsome
    · refine List.forall₂_iff_zip.mpr ⟨hlength.symm, fun {a c} hmem _ => ?_⟩
      exact hzero c (List.of_mem_zip hmem).2
  · rw [or_iff_right hdry]
    push Not at hdry
    constructor
    · intro h
      have hcosts := quoteOutputPath_costs hlib hcurve hpools hpos hsorted hwords hdry hquoted
      -- everything is quoted, so everything can be had
      have hreachable : ∀ a ∈ amountsOut, Reachable lib factory curve path a := by
        intro a ha
        by_contra hnot
        obtain ⟨c, hc, hzero⟩ := exists_of_mem_right h.unreachable.flip ha
        obtain ⟨b, hb, hcost⟩ := exists_of_mem_right hcosts hc
        have hpaid := hcost.pos hcurve hdry (hpos b (mem_of_mem_stalled hb))
        exact absurd (hzero hnot) hpaid.ne'
      refine ⟨hreachable, repeatsLast_iff.mpr ?_⟩
      have hback := quotes_bring_back hlib hcurve hpools htokens hpos hwords hquote hdry hreachable
      have hge := forall₂_comp h.delivers hback.flip
      apply eq_of_forall₂_le (stalled_le hsorted)
      refine hge.imp fun a b ⟨c, hdelivers, hsome, hback⟩ => ?_
      obtain ⟨delivered, hquote', hle⟩ := hdelivers hsome
      rw [hback] at hquote'
      cases hquote'
      exact hle
    · rintro ⟨hreachable, hrepeats⟩
      have hback := quotes_bring_back hlib hcurve hpools htokens hpos hwords hquote hdry hreachable
      rw [repeatsLast_iff.mp hrepeats] at hback
      refine ⟨hback.imp fun a c hback _ => ⟨a, hback.2, le_rfl⟩, ?_⟩
      refine List.forall₂_iff_zip.mpr ⟨hback.length_eq, fun {a c} hmem hnot => ?_⟩
      exact absurd (hreachable a (List.of_mem_zip hmem).1) hnot

end Quoted

/-- A path over one pool, whose output is token1. -/
def downwards : List PathPool := [⟨2, 1, 0⟩]

/-- An output of 2047 units can be had, and it is delivered for what is quoted. -/
theorem single_output_deliverable :
    QuotesDeliverable ElasticStraight.library (fun _ _ _ => ElasticStraight.pool)
      ElasticStraight.curve downwards [2047] [2048] := by
  refine (@quotesDeliverable_iff _ (fun _ _ _ => ElasticStraight.pool) _ downwards [2047] [2048]
    ElasticStraight.library_lawful ElasticStraight.exactStep
    (fun _ _ => ElasticStraight.pool_sound) ?_ ?_ ?_ (by decide +kernel)).mpr (.inr ⟨?_, ?_⟩)
  · decide
  · decide
  · decide
  · intro a ha
    cases List.mem_singleton.mp ha
    refine ⟨2048, 2048, ⟨0, -(2 ^ 96 - 2 ^ 85), ⟨⟨?_, ?_, ?_⟩, ?_, ?_, ?_⟩, ?_, ?_, ?_⟩, rfl⟩
    · exact fun j hj => absurd hj (Nat.not_lt_zero j)
    · decide +kernel
    · decide +kernel
    · decide +kernel
    · exact fun j hj => absurd hj (Nat.not_lt_zero j)
    · intro _
      decide +kernel
    · decide +kernel
    · decide +kernel
    · decide +kernel
  · exact repeatsLast_iff.mpr (by decide)

/-- A quote that brings back too little cannot be delivered. -/
theorem not_quotesDeliverable {amountOut amountIn delivered : ℕ}
    (hquoted : (amountOut, amountIn) ∈ amountsOut.zip amountsIn) (hsome : amountIn ≠ 0)
    (hback : quoteExactMultiInput lib factory (reversed path) [amountIn] = .ok [delivered])
    (hlt : delivered < amountOut) :
    ¬ QuotesDeliverable lib factory curve path amountsOut amountsIn := by
  intro h
  obtain ⟨delivered', hback', hle⟩ := List.forall₂_zip h.delivers hquoted hsome
  rw [hback] at hback'
  cases hback'
  exact absurd hle (not_le.mpr hlt)

/-- Behind a repeated output a larger one is quoted at what the repeated one costs, and an output
that is not there before the price limit is quoted at what is: the pools are kept as they should
be, and neither quote can be delivered. -/
theorem outputs_not_delivered :
    (ElasticStraight.pool.Sound ElasticStraight.library.tickMath ∧
      quoteExactMultiOutput ElasticStraight.library (fun _ _ _ => ElasticStraight.pool) downwards
        [2047, 2047, 4094] = .ok [2048, 2048, 2048] ∧
      ¬ QuotesDeliverable ElasticStraight.library (fun _ _ _ => ElasticStraight.pool)
        ElasticStraight.curve downwards [2047, 2047, 4094] [2048, 2048, 2048]) ∧
    ElasticStraight.lowPool.Sound ElasticStraight.library.tickMath ∧
      quoteExactMultiOutput ElasticStraight.library (fun _ _ _ => ElasticStraight.lowPool) downwards
        [1000, 5000] = .ok [1000, 1285] ∧
      ¬ QuotesDeliverable ElasticStraight.library (fun _ _ _ => ElasticStraight.lowPool)
        ElasticStraight.curve downwards [1000, 5000] [1000, 1285] := by
  refine ⟨⟨ElasticStraight.pool_sound, by decide +kernel, ?_⟩, ElasticStraight.lowPool_sound,
    by decide +kernel, ?_⟩
  · exact @not_quotesDeliverable _ _ _ _ _ _ 4094 2048 2047 (by decide) (by decide)
      (by decide +kernel) (by decide)
  · exact @not_quotesDeliverable _ _ _ _ _ _ 5000 1285 1285 (by decide) (by decide)
      (by decide +kernel) (by decide)

end Deliverable

end ZeroExApi.KyberElastic
