/-
# ZeroExApi.ElasticQuotes — what the walk over a pool of Kyber Elastic notes

An amount is given by a pool if there is a place within reach where it has been received
(`Gives`).  Where the walk ends at the limit with less than that (`Stops`), what has been paid so
far is noted all the same.

For exact outputs the loop of `multiswap` notes what the stand-in of an amount costs, in one of the
two ways (`multiswapLoop_costs`).  An exact input of what an amount costs, if it is given, comes
back as that amount (`multiswapLoop_gives`).
-/

import ZeroExApi.ElasticTrack

namespace ZeroExApi.KyberElastic

open ZeroExApi.Lib ZeroExApi.Lib.Fallible
open ZeroExApi.MultiQuoter (Revert checkedInt256 checkedInt256_eq_ok specified calculated turnsFor
  ratio_le fits_specified specified_sub specified_zero specified_eq_zero sub stalled stalled_of_ne
  length_stalled le_of_mem_stalled mem_stalled_repeated)

/-! ## What a chain gives up to a limit -/

section Chains

variable (C : Chain ℕ) (limit : ℤ)

/-- So much is received for so much, at a place within reach. -/
def Gives (received paid : ℕ) : Prop :=
  ∃ k z, Reach C limit k z ∧ C.receivedAt k z = received ∧ C.paidAt k z = paid ∧ paid < 2 ^ 255

/-- Less than that is received at the limit, for so much. -/
def Stops (received paid : ℕ) : Prop :=
  ∃ k, Reach C limit k limit ∧ C.receivedAt k limit < received ∧ C.paidAt k limit = paid ∧
    paid < 2 ^ 255

/-- What is noted for an output. -/
def Costs (received paid : ℕ) : Prop := Gives C limit received paid ∨ Stops C limit received paid

/-- Nothing is received anywhere within reach. -/
def Dry : Prop := ∀ k z, Reach C limit k z → C.receivedAt k z = 0

variable {C limit} (hexact : C.curve.Exact) {b b' c c' : ℕ}
include hexact

/-- No place within reach is further on than the limit. -/
theorem Reach.growTogether_limit {k k' : ℕ} {z : ℤ} (h : Reach C limit k z)
    (hlimit : Reach C limit k' limit) :
    GrowTogether (C.paidAt k z) (C.receivedAt k z) (C.paidAt k' limit) (C.receivedAt k' limit) :=
  Chain.growTogether_of_right hexact h.on hlimit.on h.le_limit

theorem Gives.unique (h : Gives C limit b c) (h' : Gives C limit b c') : c = c' := by
  obtain ⟨k, z, hreach, rfl, rfl, _⟩ := h
  obtain ⟨k', z', hreach', hsame, rfl, _⟩ := h'
  exact (Chain.paidAt_eq_iff hexact hreach.on hreach'.on).mpr hsame.symm

theorem Gives.received_unique (h : Gives C limit b c) (h' : Gives C limit b' c) : b = b' := by
  obtain ⟨k, z, hreach, rfl, rfl, _⟩ := h
  obtain ⟨k', z', hreach', rfl, hsame, _⟩ := h'
  exact (Chain.paidAt_eq_iff hexact hreach.on hreach'.on).mp hsame.symm

/-- Up to the limit there is less than what is not given. -/
theorem Stops.lt_of_gives (h : Stops C limit b c) (h' : Gives C limit b' c') :
    b' < b ∧ c' ≤ c := by
  obtain ⟨k, hlimit, hlt, rfl, _⟩ := h
  obtain ⟨k', z', hreach', rfl, rfl, _⟩ := h'
  obtain ⟨hpaid, hreceived, _⟩ := hreach'.growTogether_limit hexact hlimit
  exact ⟨by omega, hpaid⟩

theorem Stops.unique (h : Stops C limit b c) (h' : Stops C limit b' c') : c = c' := by
  obtain ⟨k, hlimit, _, rfl, _⟩ := h
  obtain ⟨k', hlimit', _, rfl, _⟩ := h'
  have hle := (hlimit.growTogether_limit hexact hlimit').paid_le
  have hge := (hlimit'.growTogether_limit hexact hlimit).paid_le
  omega

/-- What is given costs what it is given for. -/
theorem Costs.eq_of_gives (h : Costs C limit b c) (h' : Gives C limit b c') : c = c' := by
  rcases h with hgives | hstops
  · exact hgives.unique hexact h'
  · exact absurd (hstops.lt_of_gives hexact h').1 (lt_irrefl b)

theorem Costs.mono (hle : b ≤ b') (h : Costs C limit b c) (h' : Costs C limit b' c') : c ≤ c' := by
  rcases h with hgives | hstops
  · rcases h' with hgives' | hstops'
    · obtain ⟨k, z, hreach, rfl, rfl, _⟩ := hgives
      obtain ⟨k', z', hreach', rfl, rfl, _⟩ := hgives'
      by_contra hlt
      have hless := (Chain.paidAt_lt_iff hexact hreach'.on hreach.on).mp (not_le.mp hlt)
      omega
    · exact (hstops'.lt_of_gives hexact hgives).2
  · rcases h' with hgives' | hstops'
    · exact absurd (hstops.lt_of_gives hexact hgives').1 (not_lt.mpr hle)
    · exact (hstops.unique hexact hstops').le

theorem Costs.unique (h : Costs C limit b c) (h' : Costs C limit b c') : c = c' :=
  le_antisymm (h.mono hexact le_rfl h') (h'.mono hexact le_rfl h)

/-- Where a larger output costs no more, the limit is met, and no output costs more. -/
theorem Costs.eq_of_repeated {b'' c'' : ℕ} (hlt : b < b') (hle : b' ≤ b'')
    (h : Costs C limit b c) (h' : Costs C limit b' c) (h'' : Costs C limit b'' c'') : c'' = c := by
  have hstops : Stops C limit b' c := by
    rcases h' with hgives' | hstops'
    · rcases h with hgives | hstops
      · exact absurd (hgives.received_unique hexact hgives') hlt.ne
      · exact absurd (hstops.lt_of_gives hexact hgives').1 (not_lt.mpr hlt.le)
    · exact hstops'
  rcases h'' with hgives'' | hstops''
  · exact absurd (hstops.lt_of_gives hexact hgives'').1 (not_lt.mpr hle)
  · exact hstops''.unique hexact hstops

/-- At the start nothing has been paid. -/
theorem totals_start : C.paidAt 0 (C.joint 0) = 0 ∧ C.receivedAt 0 (C.joint 0) = 0 := by
  unfold Chain.paidAt Chain.receivedAt
  rw [hexact.paid_self, hexact.received_self]
  exact ⟨rfl, rfl⟩

/-- Nothing is received for nothing, and the other way round. -/
theorem Reach.paidAt_eq_zero_iff {k : ℕ} {z : ℤ} (h : Reach C limit k z) :
    C.paidAt k z = 0 ↔ C.receivedAt k z = 0 := by
  obtain ⟨hpaid, hreceived⟩ := totals_start hexact
  have hiff := Chain.paidAt_eq_iff hexact h.on h.on.start
  rwa [hpaid, hreceived] at hiff

/-- From a pool that is not dry, nothing comes for nothing. -/
theorem Costs.pos (hdry : ¬ Dry C limit) (hb : 0 < b) (h : Costs C limit b c) : 0 < c := by
  rcases h with ⟨k, z, hreach, rfl, rfl, _⟩ | ⟨k, hlimit, _, rfl, _⟩
  · have hiff := hreach.paidAt_eq_zero_iff hexact
    omega
  · unfold Dry at hdry
    push Not at hdry
    obtain ⟨k', z', hreach', hsome⟩ := hdry
    have hiff := hlimit.paidAt_eq_zero_iff hexact
    have hle := (hreach'.growTogether_limit hexact hlimit).received_le
    omega

/-- From a dry pool nothing comes, for nothing. -/
theorem Costs.eq_zero (hdry : Dry C limit) (h : Costs C limit b c) : c = 0 := by
  rcases h with ⟨k, z, hreach, _, rfl, _⟩ | ⟨k, hreach, _, rfl, _⟩
  · exact (hreach.paidAt_eq_zero_iff hexact).mpr (hdry k z hreach)
  · exact (hreach.paidAt_eq_zero_iff hexact).mpr (hdry k _ hreach)

end Chains

/-! ## Where a walk starts, and what is noted -/

section Walks

variable {lib : Library} {swap : Swap} {curve : Curve ℕ} (h : swap.Lawful lib curve) {k : ℕ}
  {data : SwapData}

include h in
/-- Where a walk over a pool starts. -/
theorem start_at (hlimit : ahead swap.willUpTick swap.pool.sqrtP ≤
      ahead swap.willUpTick swap.limitSqrtP) (amount : ℤ) :
    At lib swap curve 0 (getInitialSwapData swap.pool swap.willUpTick amount) := by
  have hmath := h.library.tickMath
  have htick := h.pool.inTick
  have htick_lt := htick.tick_lt
  have htick_min := htick.minTick_le
  obtain ⟨hmem_min, hmem_max⟩ := h.pool.tick_mem swap.willUpTick 0
  have hexact := h.step.exact
  have hdown := h.pool.tick_le
  have hup := h.pool.lt_tick
  have htotals := totals_start (C := swap.track lib curve) hexact
  refine ⟨⟨⟨⟨fun j hj => absurd hj (Nat.not_lt_zero j), le_rfl, ?_⟩, hlimit,
    fun j hj => absurd hj (Nat.not_lt_zero j), fun hlt => absurd hlt (lt_irrefl _)⟩,
    fun j hj => absurd hj (Nat.not_lt_zero j), rfl, rfl, ?_, ?_⟩, htick, ?_, ?_⟩
  · -- the price of the pool lies before that of the tick it walks to
    show ahead swap.willUpTick swap.pool.sqrtP ≤ ahead swap.willUpTick _
    cases hwill : swap.willUpTick with
    | true =>
      rw [hwill] at hmem_max
      have hle := htick.le_ratio.trans (ratio_le hmath (by omega) hup hmem_max)
      show (swap.pool.sqrtP : ℤ) ≤ lib.tickMath.getSqrtRatioAtTick _
      exact Int.ofNat_le.mpr hle
    | false =>
      rw [hwill] at hmem_min
      have hle := (ratio_le hmath hmem_min hdown htick_lt.le).trans htick.ratio_le
      show -(swap.pool.sqrtP : ℤ) ≤ -lib.tickMath.getSqrtRatioAtTick _
      exact Int.neg_le_neg (Int.ofNat_le.mpr hle)
  · exact (hexact.after_self _ _).symm
  · -- nothing has been paid or received
    show (0 : ℤ) = calculated _ (returnedAt _ _ 0 ((swap.track lib curve).joint 0))
    cases swap.isExactInput with
    | true =>
      show (0 : ℤ) = -((swap.track lib curve).receivedAt 0 _ : ℤ)
      rw [htotals.2]
      rfl
    | false =>
      show (0 : ℤ) = ((swap.track lib curve).paidAt 0 _ : ℤ)
      rw [htotals.1]
      rfl
  · intro hwill
    show swap.pool.currentTick < swap.pool.tickAt swap.willUpTick 0
    rw [hwill]
    exact hup
  · intro hwill
    show swap.pool.tickAt swap.willUpTick 0 ≤ swap.pool.currentTick
    rw [hwill]
    exact hdown

/-- Where a walk starts nothing has been paid. -/
theorem start_totals (hexact : curve.Exact) (amount : ℤ) :
    (swap.track lib curve).paidAt 0
        ((getInitialSwapData swap.pool swap.willUpTick amount).place swap) = 0 ∧
      (swap.track lib curve).receivedAt 0
        ((getInitialSwapData swap.pool swap.willUpTick amount).place swap) = 0 :=
  totals_start (C := swap.track lib curve) hexact

/-- What a quote for an exact output reads of what is noted. -/
def readPaid (isToken0 : Bool) (r : ℤ × ℤ) : ℕ := uint256 (if isToken0 then r.1 else r.2)

theorem readPaid_noted (hout : swap.isExactInput = false) (specifiedAmount returnedAmount : ℤ) :
    readPaid swap.isToken0 (noted swap specifiedAmount returnedAmount) =
      uint256 returnedAmount := by
  unfold readPaid noted
  rw [hout]
  cases swap.isToken0 <;> rfl

/-- When the loop has ended, the same is read for all amounts that are left. -/
theorem notedRest_readPaid (hout : swap.isExactInput = false) {amounts : List ℤ}
    {results : List (ℤ × ℤ)} (hrest : notedRest swap data amounts = .ok results) :
    results.map (readPaid swap.isToken0) = amounts.map fun _ => uint256 data.returnedAmount := by
  have hall := mapM_eq_ok_iff.mp hrest
  induction hall with
  | nil => rfl
  | @cons amount r amounts results hfirst hall ih =>
    obtain ⟨specifiedAmount, _, hnoted⟩ := bind_eq_ok.mp hfirst
    cases hnoted
    rw [List.map_cons, List.map_cons, readPaid_noted hout, ih (mapM_eq_ok_iff.mpr hall)]

theorem length_notedRest {amounts : List ℤ} {results : List (ℤ × ℤ)}
    (hrest : notedRest swap data amounts = .ok results) : results.length = amounts.length :=
  (mapM_eq_ok_iff.mp hrest).length_eq.symm

/-- The loop notes something for every amount. -/
theorem length_multiswapLoop {turns : ℕ} {amount : ℤ} {amounts : List ℤ}
    {results : List (ℤ × ℤ)}
    (hloop : multiswapLoop lib swap turns data amount amounts = .ok results) :
    results.length = amounts.length + 1 := by
  induction turns generalizing data amount amounts results with
  | zero => cases hloop
  | succ turns ih =>
    unfold multiswapLoop at hloop
    split at hloop
    · exact length_notedRest hloop
    · obtain ⟨⟨data', reached⟩, _, hbody⟩ := bind_eq_ok.mp hloop
      change (if !reached && amounts.isEmpty then _ else if data'.specifiedAmount = 0 then _ else _)
        = Except.ok results at hbody
      split at hbody
      · rename_i hlast
        rw [Bool.and_eq_true, List.isEmpty_iff] at hlast
        rw [length_notedRest hbody, hlast.2]
        rfl
      · split at hbody
        · cases amounts with
          | nil =>
            cases hbody
            rfl
          | cons next amounts =>
            obtain ⟨_, _, hbody⟩ := bind_eq_ok.mp hbody
            obtain ⟨_, hrest, hresults⟩ := bind_eq_ok.mp hbody
            cases hresults
            rw [List.length_cons, ih hrest, List.length_cons]
        · exact ih hbody

theorem length_multiswap {pool : Pool} {isToken0 : Bool} {amounts : List ℤ} {limit : ℕ}
    {results : List (ℤ × ℤ)} (hswap : multiswap lib pool isToken0 amounts limit = .ok results) :
    results.length = amounts.length := by
  cases amounts with
  | nil => cases hswap
  | cons amount rest =>
    unfold multiswap at hswap
    dsimp only at hswap
    split at hswap
    · cases hswap
    · exact length_multiswapLoop hswap

/-- What has been paid at a place is given. -/
theorem At.gives (hat : At lib swap curve k data) (hout : swap.isExactInput = false)
    (hfits : FitsInt256 data.returnedAmount) :
    Gives (swap.track lib curve) (ahead swap.willUpTick swap.limitSqrtP)
      ((swap.track lib curve).receivedAt k (data.place swap)) (uint256 data.returnedAmount) := by
  have hreturned := hat.placed.returned
  rw [hout] at hreturned
  change data.returnedAmount = ((swap.track lib curve).paidAt k (data.place swap) : ℤ) at hreturned
  obtain ⟨_, hlt⟩ := hfits
  rw [hreturned] at hlt ⊢
  have hlt' : (swap.track lib curve).paidAt k (data.place swap) < 2 ^ 255 := by omega
  rw [uint256_natCast (by omega)]
  exact ⟨k, data.place swap, hat.placed.reach, rfl, rfl, hlt'⟩

/-- What has been paid at the limit is noted for what is not received there. -/
theorem At.stops (hat : At lib swap curve k data) (hout : swap.isExactInput = false)
    (hfits : FitsInt256 data.returnedAmount) (hlimit : data.sqrtP = swap.limitSqrtP) {b : ℕ}
    (hlt : (swap.track lib curve).receivedAt k (data.place swap) < b) :
    Stops (swap.track lib curve) (ahead swap.willUpTick swap.limitSqrtP) b
      (uint256 data.returnedAmount) := by
  have hreturned := hat.placed.returned
  have hreach := hat.placed.reach
  rw [hout] at hreturned
  change data.returnedAmount = ((swap.track lib curve).paidAt k (data.place swap) : ℤ) at hreturned
  obtain ⟨_, hlt'⟩ := hfits
  rw [hreturned] at hlt' ⊢
  have hlt'' : (swap.track lib curve).paidAt k (data.place swap) < 2 ^ 255 := by omega
  rw [uint256_natCast (by omega)]
  unfold SwapData.place at *
  rw [hlimit] at *
  exact ⟨k, hreach, hlt, rfl, hlt''⟩

/-! ## The loop for exact outputs -/

theorem forall₂_const {α β γ : Type*} {R : α → β → Prop} {as : List α} {xs : List γ} {c : β}
    (hlength : as.length = xs.length) (hall : ∀ a ∈ as, R a c) :
    List.Forall₂ R as (xs.map fun _ => c) := by
  induction as generalizing xs with
  | nil =>
    cases xs with
    | nil => exact .nil
    | cons x xs => cases hlength
  | cons a as ih =>
    cases xs with
    | nil => cases hlength
    | cons x xs =>
      refine .cons (hall a List.mem_cons_self) (ih (Nat.succ.inj hlength) fun b hb => ?_)
      exact hall b (List.mem_cons_of_mem _ hb)

/-- What is noted for the stand-ins of amounts. -/
def CostsOf (lib : Library) (swap : Swap) (curve : Curve ℕ) (amounts : List ℕ)
    (results : List (ℤ × ℤ)) : Prop :=
  List.Forall₂ (Costs (swap.track lib curve) (ahead swap.willUpTick swap.limitSqrtP))
    (stalled amounts) (results.map (readPaid swap.isToken0))

/-- A loop that has ended notes one cost for all amounts that are left. -/
theorem costsOf_rest (hout : swap.isExactInput = false) {amounts : List ℕ} {rest : List ℤ}
    {results : List (ℤ × ℤ)} (hlength : rest.length = amounts.length)
    (hrest : notedRest swap data rest = .ok results)
    (hcosts : ∀ b ∈ stalled amounts,
      Costs (swap.track lib curve) (ahead swap.willUpTick swap.limitSqrtP) b
        (uint256 data.returnedAmount)) :
    CostsOf lib swap curve amounts results := by
  unfold CostsOf
  rw [notedRest_readPaid hout hrest]
  exact forall₂_const (by rw [length_stalled, hlength]) hcosts

/-- What is noted for an amount that is exhausted, before others. -/
theorem costsOf_cons (hout : swap.isExactInput = false) {amount b : ℕ} {rest : List ℕ}
    {results : List (ℤ × ℤ)} (hne : b ≠ amount)
    (hcosts : Costs (swap.track lib curve) (ahead swap.willUpTick swap.limitSqrtP) amount
      (uint256 data.returnedAmount)) (hrest : CostsOf lib swap curve (b :: rest) results)
    (specifiedAmount : ℤ) :
    CostsOf lib swap curve (amount :: b :: rest)
      (noted swap specifiedAmount data.returnedAmount :: results) := by
  unfold CostsOf
  rw [stalled_of_ne rest hne, List.map_cons, readPaid_noted hout]
  exact .cons hcosts hrest

/-- Nothing more is walked after a repeated amount, which stands for all that follow. -/
theorem costsOf_repeated (hout : swap.isExactInput = false) {turns amount : ℕ} {rest : List ℕ}
    {results : List (ℤ × ℤ)} (hnone : data.specifiedAmount = 0)
    (hloop : multiswapLoop lib swap turns data (specified swap.isExactInput amount)
      (rest.map (specified swap.isExactInput)) = .ok results)
    (hgives : Gives (swap.track lib curve) (ahead swap.willUpTick swap.limitSqrtP) amount
      (uint256 data.returnedAmount)) (specifiedAmount : ℤ) :
    CostsOf lib swap curve (amount :: amount :: rest)
      (noted swap specifiedAmount data.returnedAmount :: results) := by
  cases turns with
  | zero => cases hloop
  | succ turns =>
    unfold multiswapLoop at hloop
    rw [if_pos (.inl hnone)] at hloop
    have hrest := notedRest_readPaid hout hloop
    have hstalled : stalled (amount :: amount :: rest) =
        amount :: amount :: rest.map fun _ => amount := if_pos rfl
    unfold CostsOf
    rw [List.map_cons, readPaid_noted hout, hrest, hstalled]
    apply List.Forall₂.cons (.inl hgives)
    apply forall₂_const (by simp)
    intro b hb
    have hmem : b ∈ stalled (amount :: amount :: rest) := hstalled ▸ List.mem_cons_of_mem _ hb
    rw [mem_stalled_repeated hmem]
    exact .inl hgives

include h in
/-- Where an output is walked to, it can be had, or the target comes first. -/
theorem lands_output (hat : At lib swap curve k data) (hout : swap.isExactInput = false)
    (amount : ℕ) :
    Lands curve swap.willUpTick swap.isExactInput (data.baseL + data.reinvestL) data.sqrtP
      (targetSqrtP lib swap data) amount := by
  have hahead : ahead swap.willUpTick data.sqrtP ≤
      ahead swap.willUpTick (targetSqrtP lib swap data) := by
    rw [ahead_target]
    exact le_min (nextSqrtP_between h hat).1 hat.placed.reach.le_limit
  rw [hout]
  exact h.step.attained hahead (min_le_right _ _)

include h in
/-- The loop for exact outputs notes what the stand-in of each amount costs.  By induction on the
turns: what is left of the current amount is received from where the walk has got to. -/
theorem multiswapLoop_costs (hout : swap.isExactInput = false) {turns amount remaining : ℕ}
    {rest : List ℕ} {results : List (ℤ × ℤ)} (hat : At lib swap curve k data)
    (hfits : FitsInt256 data.returnedAmount)
    (hspecified : data.specifiedAmount = specified swap.isExactInput remaining)
    (htotal : (swap.track lib curve).receivedAt k (data.place swap) + remaining = amount)
    (hpos : 0 < remaining) (hsorted : (amount :: rest).Pairwise (· ≤ ·))
    (hwords : ∀ a ∈ amount :: rest, a < 2 ^ 255)
    (hloop : multiswapLoop lib swap turns data (specified swap.isExactInput amount)
      (rest.map (specified swap.isExactInput)) = .ok results) :
    CostsOf lib swap curve (amount :: rest) results := by
  induction turns generalizing k data amount remaining rest results with
  | zero => cases hloop
  | succ turns ih =>
    have hword := hwords amount List.mem_cons_self
    have hnonzero : data.specifiedAmount ≠ 0 := by
      rw [hspecified, Ne, specified_eq_zero]
      omega
    unfold multiswapLoop at hloop
    by_cases hlimit : data.sqrtP = swap.limitSqrtP
    · -- the walk ends at the limit, short of all that are left
      rw [if_pos (.inr hlimit)] at hloop
      apply costsOf_rest hout (by simp) hloop
      intro b hb
      have hle := le_of_mem_stalled hsorted hb
      exact .inr (hat.stops hout hfits hlimit (by omega))
    · rw [if_neg (by tauto)] at hloop
      obtain ⟨⟨data', reached⟩, hturn, hbody⟩ := bind_eq_ok.mp hloop
      have hliquidity := liquidity_lt_of_swapTurn hturn
      obtain ⟨data'', reached', k', left, hto, hturn'⟩ := swapTurn_spec h hat hliquidity hpos
        (by omega) hspecified (lands_output h hat hout remaining)
      rw [hturn'] at hturn
      cases hchecked : checkedInt256 data''.returnedAmount with
      | error e =>
        rw [hchecked] at hturn
        cases hturn
      | ok returned =>
        rw [hchecked] at hturn
        cases hturn
        have hfits' := (checkedInt256_eq_ok.mp hchecked).1
        have hat' := hto.at_place
        have htotal' := hto.total
        have hleft := hto.left_le
        rw [hout] at htotal'
        change (swap.track lib curve).receivedAt k' (data'.place swap) + left =
          (swap.track lib curve).receivedAt k (data.place swap) + remaining at htotal'
        change (if !reached && (rest.map (specified swap.isExactInput)).isEmpty then _
          else if data'.specifiedAmount = 0 then _ else _) = Except.ok results at hbody
        have hzero : data'.specifiedAmount = 0 ↔ left = 0 := by
          rw [hto.specified, specified_eq_zero]
        have hgives := hat'.gives hout hfits'
        split at hbody
        · -- the last amount is exhausted, or the limit is met
          rename_i hlast
          rw [Bool.and_eq_true, List.isEmpty_iff, List.map_eq_nil_iff] at hlast
          obtain ⟨hreached, rfl⟩ := hlast
          apply costsOf_rest hout rfl hbody
          intro b hb
          cases List.mem_singleton.mp hb
          rcases Nat.eq_zero_or_pos left with rfl | hsome
          · left
            rwa [show (swap.track lib curve).receivedAt k' (data'.place swap) = amount by omega]
              at hgives
          · rcases hto.progress hsome with hlimit' | ⟨hreached', _⟩
            · exact .inr (hat'.stops hout hfits' hlimit' (by omega))
            · rw [hreached'] at hreached
              cases hreached
        · split at hbody
          · -- the amount is exhausted
            rename_i hexhausted
            have hnone := hzero.mp hexhausted
            have hplace : (swap.track lib curve).receivedAt k' (data'.place swap) = amount := by
              omega
            rw [hplace] at hgives
            cases rest with
            | nil =>
              cases hbody
              unfold CostsOf
              rw [List.map_singleton, readPaid_noted hout]
              exact .cons (.inl hgives) .nil
            | cons next rest =>
              obtain ⟨hnext, hrest⟩ := List.pairwise_cons.mp hsorted
              have hnext := hnext next List.mem_cons_self
              have hword' := hwords next (List.mem_cons_of_mem _ List.mem_cons_self)
              have hsub : sub (specified swap.isExactInput next)
                  (specified swap.isExactInput amount) =
                    .ok (specified swap.isExactInput (next - amount)) := by
                rw [← specified_sub _ hnext]
                apply checkedInt256_eq_ok.mpr ⟨?_, rfl⟩
                rw [specified_sub _ hnext]
                exact fits_specified _ (by omega)
              change (sub (specified swap.isExactInput next) (specified swap.isExactInput amount)
                >>= _) = Except.ok results at hbody
              rw [hsub, ok_bind] at hbody
              obtain ⟨results', hnextLoop, hresults⟩ := bind_eq_ok.mp hbody
              cases hresults
              have hat'' : At lib swap curve k'
                  { data' with specifiedAmount := specified swap.isExactInput (next - amount) } :=
                ⟨⟨hat'.placed.reach, hat'.placed.inside, hat'.placed.nextTick, hat'.placed.baseL,
                  hat'.placed.liquidity, hat'.placed.returned⟩, hat'.onTick⟩
              by_cases hrepeated : next = amount
              · -- nothing is left to walk, and the repeated amount stands for all that follow
                subst hrepeated
                rw [Nat.sub_self, specified_zero] at hnextLoop
                exact costsOf_repeated hout rfl hnextLoop hgives _
              · apply costsOf_cons hout hrepeated (.inl hgives)
                apply ih hat'' hfits' rfl _ (by omega) hrest
                  (fun a ha => hwords a (List.mem_cons_of_mem _ ha)) hnextLoop
                show (swap.track lib curve).receivedAt k' (data'.place swap) + _ = next
                omega
          · -- the walk goes on
            rename_i hleft_over
            rw [hzero] at hleft_over
            exact ih hat' hfits' hto.specified (by omega) (by omega) hsorted hwords hbody

/-! ## The loop for an exact input -/

/-- What a quote for an exact input reads of what is noted, before it is negated. -/
theorem noted_received (hin : swap.isExactInput = true) (specifiedAmount returnedAmount : ℤ) :
    (if swap.isToken0 then (noted swap specifiedAmount returnedAmount).2
      else (noted swap specifiedAmount returnedAmount).1) = returnedAmount := by
  unfold noted
  rw [hin]
  cases swap.isToken0 <;> rfl

variable {K : ℕ} {Z : ℤ}

include h in
/-- Short of a place within reach there is a place where an input is spent, or the target comes
first. -/
theorem lands_input (hat : At lib swap curve k data) (hin : swap.isExactInput = true)
    (hreach : Reach (swap.track lib curve) (ahead swap.willUpTick swap.limitSqrtP) K Z)
    {remaining : ℕ} (hpos : 0 < remaining)
    (htotal : (swap.track lib curve).paidAt k (data.place swap) + remaining =
      (swap.track lib curve).paidAt K Z) :
    Lands curve swap.willUpTick swap.isExactInput (data.baseL + data.reinvestL) data.sqrtP
      (targetSqrtP lib swap data) remaining := by
  have hexact : (swap.track lib curve).curve.Exact := h.step.exact
  obtain ⟨hnext, hjoint⟩ := nextSqrtP_between h hat
  have htarget := @ahead_target lib swap data
  have hon := hat.placed.reach.on
  have hahead : data.place swap ≤ ahead swap.willUpTick (targetSqrtP lib swap data) := by
    rw [htarget]
    exact le_min hnext hat.placed.reach.le_limit
  have hright : ahead swap.willUpTick (targetSqrtP lib swap data) ≤
      (swap.track lib curve).joint (k + 1) := by
    rw [htarget]
    exact (min_le_left _ _).trans hjoint
  have htarget_total := hat.placed.specifiedAt_add h true hahead
  change (swap.track lib curve).paidAt k _ = (swap.track lib curve).paidAt k _ +
    curve.paid _ _ _ at htarget_total
  rw [hin]
  show ∃ z, data.place swap ≤ z ∧ z ≤ ahead swap.willUpTick (targetSqrtP lib swap data) ∧
    curve.paid _ (data.place swap) z = min remaining (curve.paid _ (data.place swap)
      (ahead swap.willUpTick (targetSqrtP lib swap data)))
  by_cases henough : curve.paid (data.baseL + data.reinvestL) (data.place swap)
      (ahead swap.willUpTick (targetSqrtP lib swap data)) ≤ remaining
  · exact ⟨_, hahead, le_rfl, (min_eq_right henough).symm⟩
  · -- the place is on this stretch, before the target
    have hon_target : (swap.track lib curve).On k
        (ahead swap.willUpTick (targetSqrtP lib swap data)) :=
      ⟨hon.forward, hon.left.trans hahead, hright⟩
    have hbefore := Chain.before_of_lt hexact hon hreach.on (by omega)
    have hafter := Chain.before_of_lt hexact hreach.on hon_target (by omega)
    have hsame : K = k := by omega
    subst hsame
    have hplace : data.place swap ≤ Z := by omega
    have htotal' := hat.placed.specifiedAt_add h true hplace
    change (swap.track lib curve).paidAt K Z = (swap.track lib curve).paidAt K _ +
      curve.paid _ _ Z at htotal'
    exact ⟨Z, hplace, by omega, by omega⟩

include h in
/-- Short of a place within reach the liquidity is a word. -/
theorem liquidity_lt_of_reach (hat : At lib swap curve k data)
    (hreach : Reach (swap.track lib curve) (ahead swap.willUpTick swap.limitSqrtP) K Z)
    (hlt : (swap.track lib curve).paidAt k (data.place swap) <
      (swap.track lib curve).paidAt K Z) : data.baseL + data.reinvestL < 2 ^ 128 := by
  have hexact : (swap.track lib curve).curve.Exact := h.step.exact
  have hon := hat.placed.reach.on
  have hstate : (swap.track lib curve).stateAt k < 2 ^ 128 := by
    rcases Chain.before_of_lt hexact hon hreach.on hlt with hbefore | ⟨rfl, hbefore⟩
    · exact hreach.fits_before k hbefore
    · exact hreach.fits (lt_of_le_of_lt hon.left hbefore)
  rw [hat.placed.liquidity]
  exact h.step.fits hon.left hstate

/-- When the loop has ended with nothing left, one amount is noted as it is. -/
theorem notedRest_single {amount : ℕ} (hword : amount < 2 ^ 255)
    (hnone : data.specifiedAmount = 0) :
    notedRest swap data [specified swap.isExactInput amount] =
      .ok [noted swap (specified swap.isExactInput amount) data.returnedAmount] := by
  have hchecked : checkedInt256 (specified swap.isExactInput amount - data.specifiedAmount) =
      .ok (specified swap.isExactInput amount) := by
    rw [hnone, sub_zero]
    exact checkedInt256_eq_ok.mpr ⟨fits_specified _ hword, rfl⟩
  unfold notedRest
  rw [List.mapM_cons, List.mapM_nil, hchecked]
  rfl

/-- There are turns for all ticks that are left. -/
theorem ticksLeft_mem (hat : At lib swap curve k data) (amounts : ℕ) :
    0 ≤ ticksLeft lib swap data ∧
      ticksLeft lib swap data + 1 ≤ (turnsFor lib.tickMath amounts : ℕ) := by
  have hmin := hat.onTick.inTick.minTick_le
  have hmax := hat.onTick.inTick.tick_lt
  unfold ticksLeft turnsFor
  split <;> omega

include h in
/-- An exact input of what has been paid at a place within reach comes back as what is received
there.  By induction on the turns: each one leaves less ticks, until the input is spent. -/
theorem multiswapLoop_gives (hin : swap.isExactInput = true)
    (hreach : Reach (swap.track lib curve) (ahead swap.willUpTick swap.limitSqrtP) K Z)
    {turns amount remaining : ℕ} (hpaid : (swap.track lib curve).paidAt K Z = amount)
    (hword : amount < 2 ^ 255) (hreceived : (swap.track lib curve).receivedAt K Z < 2 ^ 255)
    (hat : At lib swap curve k data)
    (hspecified : data.specifiedAmount = specified swap.isExactInput remaining)
    (htotal : (swap.track lib curve).paidAt k (data.place swap) + remaining = amount)
    (hpos : 0 < remaining) (hturns : ticksLeft lib swap data + 1 ≤ turns) :
    multiswapLoop lib swap turns data (specified swap.isExactInput amount) [] =
      .ok [noted swap (specified swap.isExactInput amount)
        (-(swap.track lib curve).receivedAt K Z)] := by
  have hexact : (swap.track lib curve).curve.Exact := h.step.exact
  -- at the limit there is nothing left to spend
  have hlimit : ∀ {k' data'}, At lib swap curve k' data' →
      (swap.track lib curve).paidAt k' (data'.place swap) < amount →
        data'.sqrtP ≠ swap.limitSqrtP := by
    intro k' data' hat' hlt heq
    have hle := Chain.growTogether_of_right hexact hreach.on hat'.placed.reach.on (by
      unfold SwapData.place
      rw [heq]
      exact hreach.le_limit)
    have hpaid_le := hle.paid_le
    omega
  induction turns generalizing k data remaining with
  | zero =>
    have hnonneg := (ticksLeft_mem hat 1).1
    omega
  | succ turns ih =>
    have hliquidity := liquidity_lt_of_reach h hat hreach (by omega)
    have hlands := lands_input h hat hin hreach hpos (by omega)
    obtain ⟨data', reached, k', left, hto, hturn⟩ := swapTurn_spec h hat hliquidity hpos
      (by omega) hspecified hlands
    have hat' := hto.at_place
    have hleft := hto.left_le
    have htotal' := hto.total
    rw [hin] at htotal'
    change (swap.track lib curve).paidAt k' (data'.place swap) + left =
      (swap.track lib curve).paidAt k (data.place swap) + remaining at htotal'
    have hplaces := Chain.paidAt_lt_iff hexact hreach.on hat'.placed.reach.on
    have hreturned := hat'.placed.returned
    rw [hin] at hreturned
    change data'.returnedAmount = -((swap.track lib curve).receivedAt k' (data'.place swap) : ℤ)
      at hreturned
    have hchecked : checkedInt256 data'.returnedAmount = .ok data'.returnedAmount :=
      checkedInt256_eq_ok.mpr ⟨⟨by omega, by omega⟩, rfl⟩
    rw [hchecked] at hturn
    have hnonzero : data.specifiedAmount ≠ 0 := by
      rw [hspecified, Ne, specified_eq_zero]
      omega
    have hgo_on : ¬ (data.specifiedAmount = 0 ∨ data.sqrtP = swap.limitSqrtP) := by
      rintro (hnone | heq)
      · exact hnonzero hnone
      · exact hlimit hat (by omega) heq
    unfold multiswapLoop
    rw [if_neg hgo_on, hturn]
    show (if !reached && true then _ else if data'.specifiedAmount = 0 then _ else _) = _
    rcases Nat.eq_zero_or_pos left with rfl | hsome
    · -- the input is spent
      have hnone : data'.specifiedAmount = 0 := by
        rw [hto.specified, specified_zero]
      have hsame := (Chain.paidAt_eq_iff hexact hat'.placed.reach.on hreach.on).mp (by omega)
      rw [notedRest_single hword hnone, if_pos hnone, hreturned, hsame]
      split <;> rfl
    · rcases hto.progress hsome with heq | ⟨rfl, hticks⟩
      · exact absurd heq (hlimit hat' (by omega))
      · have hgo_on' : data'.specifiedAmount ≠ 0 := by
          rw [hto.specified, Ne, specified_eq_zero]
          omega
        rw [if_neg hgo_on']
        exact ih hat' hto.specified (by omega) hsome (by omega)

end Walks

end ZeroExApi.KyberElastic
