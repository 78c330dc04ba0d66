/-
# ZeroExApi.MultiSwap — one walk notes what each amount would lead to

`multiswap` of both quoters, for amounts that are positive and do not decrease.  The loop goes on
from where an amount is exhausted with what the next amount has more.  Where the next amount has
nothing more the loop ends, and everything after the repeated amount is noted as if it was that
amount (`stalled`).  Up to that, what is noted for an amount is where it leads by itself
(`multiswap_noted`).  The loop does not run out of turns: a turn crosses a tick, ends the walk or
exhausts an amount.
-/

import ZeroExApi.PoolWalk

namespace ZeroExApi.MultiQuoter

open ZeroExApi.Lib ZeroExApi.Lib.Fallible

/-! ## Amounts and their stand-ins -/

/-- The amounts that a walk really is about: after a repeated amount, it is about that amount
only. -/
def stalled : List ℕ → List ℕ
  | a :: b :: rest => if b = a then a :: a :: rest.map fun _ => a else a :: stalled (b :: rest)
  | amounts => amounts

theorem length_stalled (amounts : List ℕ) : (stalled amounts).length = amounts.length := by
  induction amounts with
  | nil => rfl
  | cons a rest ih =>
    cases rest with
    | nil => rfl
    | cons b rest =>
      unfold stalled
      split
      · simp
      · simp [ih]

/-- The first amount stands for itself. -/
theorem stalled_cons (a : ℕ) (rest : List ℕ) : ∃ rest', stalled (a :: rest) = a :: rest' := by
  cases rest with
  | nil => exact ⟨[], rfl⟩
  | cons b rest =>
    unfold stalled
    split
    · exact ⟨_, rfl⟩
    · exact ⟨_, rfl⟩

/-- After a repeated amount, that amount stands for every one. -/
theorem mem_stalled_repeated {a b : ℕ} {rest : List ℕ} (h : b ∈ stalled (a :: a :: rest)) :
    b = a := by
  unfold stalled at h
  rw [if_pos rfl] at h
  rcases List.mem_cons.mp h with rfl | h
  · rfl
  · rcases List.mem_cons.mp h with rfl | h
    · rfl
    · obtain ⟨_, _, h⟩ := List.mem_map.mp h
      exact h.symm

theorem stalled_of_ne {a b : ℕ} (rest : List ℕ) (h : b ≠ a) :
    stalled (a :: b :: rest) = a :: stalled (b :: rest) := if_neg h

theorem le_of_mem_stalled {a b : ℕ} {rest : List ℕ} (hsorted : (a :: rest).Pairwise (· ≤ ·))
    (hb : b ∈ stalled (a :: rest)) : a ≤ b := by
  induction rest generalizing a with
  | nil =>
    cases List.mem_singleton.mp hb
    exact le_rfl
  | cons c rest ih =>
    obtain ⟨hle, hrest⟩ := List.pairwise_cons.mp hsorted
    by_cases hrepeated : c = a
    · subst hrepeated
      exact (mem_stalled_repeated hb).symm.le
    · rw [stalled_of_ne rest hrepeated] at hb
      rcases List.mem_cons.mp hb with rfl | hb
      · exact le_rfl
      · exact (hle c List.mem_cons_self).trans (ih hrest hb)

theorem stalled_of_forall_eq {a : ℕ} {rest : List ℕ} (h : ∀ b ∈ rest, b = a) :
    stalled (a :: rest) = a :: rest := by
  cases rest with
  | nil => rfl
  | cons b rest =>
    have hb := h b List.mem_cons_self
    subst hb
    unfold stalled
    rw [if_pos rfl]
    congr 2
    conv_rhs => rw [← List.map_id rest]
    exact List.map_congr_left fun c hc => (h c (List.mem_cons_of_mem _ hc)).symm

theorem mem_of_mem_stalled {b : ℕ} {amounts : List ℕ} (h : b ∈ stalled amounts) : b ∈ amounts := by
  induction amounts with
  | nil => exact h
  | cons a rest ih =>
    cases rest with
    | nil => exact h
    | cons c rest =>
      by_cases hrepeated : c = a
      · subst hrepeated
        cases mem_stalled_repeated h
        exact List.mem_cons_self
      · rw [stalled_of_ne rest hrepeated] at h
        rcases List.mem_cons.mp h with rfl | h
        · exact List.mem_cons_self
        · exact List.mem_cons_of_mem _ (ih h)

/-- Stand-ins stand for themselves. -/
theorem stalled_stalled (amounts : List ℕ) : stalled (stalled amounts) = stalled amounts := by
  induction amounts with
  | nil => rfl
  | cons a rest ih =>
    cases rest with
    | nil => rfl
    | cons b rest =>
      by_cases hrepeated : b = a
      · subst hrepeated
        obtain ⟨rest', hstalled⟩ := stalled_cons b (b :: rest)
        rw [hstalled]
        apply stalled_of_forall_eq
        intro c hc
        have hmem : c ∈ stalled (b :: b :: rest) := hstalled ▸ List.mem_cons_of_mem _ hc
        exact mem_stalled_repeated hmem
      · obtain ⟨rest', hstalled⟩ := stalled_cons b rest
        rw [stalled_of_ne rest hrepeated, hstalled, stalled_of_ne rest' hrepeated, ← hstalled, ih]

/-- Stand-ins do not decrease. -/
theorem sorted_stalled {amounts : List ℕ} (h : amounts.Pairwise (· ≤ ·)) :
    (stalled amounts).Pairwise (· ≤ ·) := by
  induction amounts with
  | nil => exact .nil
  | cons a rest ih =>
    obtain ⟨rest', hstalled⟩ := stalled_cons a rest
    have hge : ∀ b ∈ rest', a ≤ b := by
      intro b hb
      apply le_of_mem_stalled h
      rw [hstalled]
      exact List.mem_cons_of_mem _ hb
    rw [hstalled]
    apply List.Pairwise.cons hge
    cases rest with
    | nil =>
      cases hstalled
      exact .nil
    | cons b rest =>
      by_cases hrepeated : b = a
      · subst hrepeated
        have hsame : ∀ c ∈ rest', c = b := fun c hc =>
          mem_stalled_repeated (hstalled ▸ List.mem_cons_of_mem _ hc)
        apply List.pairwise_of_forall_mem_list
        intro c hc d hd
        rw [hsame c hc, hsame d hd]
      · rw [stalled_of_ne rest hrepeated] at hstalled
        cases hstalled
        exact ih (List.pairwise_cons.mp h).2

/-! ## One turn -/

section Specified

variable (exactInput : Bool)

theorem specified_zero : specified exactInput 0 = 0 := by
  cases exactInput <;> rfl

theorem specified_eq_zero {amount : ℕ} : specified exactInput amount = 0 ↔ amount = 0 := by
  unfold specified
  split <;> omega

theorem fits_specified {amount : ℕ} (h : amount < 2 ^ 255) :
    FitsInt256 (specified exactInput amount) := by
  unfold specified
  constructor <;> split <;> omega

/-- A smaller amount taken off. -/
theorem specified_sub {a b : ℕ} (h : b ≤ a) :
    specified exactInput a - specified exactInput b = specified exactInput (a - b) := by
  unfold specified
  split <;> omega

end Specified

/-- What is settled is what a step uses and makes. -/
theorem settle_eq {exactInput : Bool} {amount : ℕ} {amountCalculated : ℤ} {step : SwapStep}
    (hlt : amount < 2 ^ 255) (hused : step.used exactInput ≤ amount)
    (hmade : step.made exactInput < 2 ^ 255) :
    settle exactInput (specified exactInput amount) amountCalculated step =
      (checkedInt256 (amountCalculated + calculated exactInput (step.made exactInput))).map fun c =>
        (specified exactInput (amount - step.used exactInput), c) := by
  have hword : ∀ n : ℕ, n < 2 ^ 255 → toInt256 n = .ok (n : ℤ) := by
    intro n hn
    exact checkedInt256_eq_ok.mpr ⟨⟨by omega, by omega⟩, rfl⟩
  have hleft : int256 (specified exactInput (amount - step.used exactInput)) =
      specified exactInput (amount - step.used exactInput) :=
    int256_of_fits (fits_specified exactInput (lt_of_le_of_lt (Nat.sub_le _ _) hlt))
  unfold settle
  -- an input is used with its fee, an output is used as it is received
  cases exactInput with
  | true =>
    have hpaid : uint256 (step.amountIn + step.feeAmount) = step.used true := by
      rw [← Nat.cast_add]
      exact uint256_natCast (lt_of_le_of_lt hused (by omega))
    rw [← specified_sub true hused] at hleft ⊢
    dsimp only
    rw [if_pos rfl, hpaid, hword _ (by omega), show toInt256 step.amountOut = _ from hword _ hmade]
    show (checkedInt256 _ >>= fun c => Except.ok (int256 _, c)) = _
    rw [show ((step.used true : ℕ) : ℤ) = specified true (step.used true) from rfl, hleft]
    rfl
  | false =>
    have hpaid : uint256 (step.amountIn + step.feeAmount) = step.made false := by
      rw [← Nat.cast_add]
      exact uint256_natCast (lt_trans hmade (by omega))
    rw [← specified_sub false hused] at hleft ⊢
    dsimp only
    rw [if_neg Bool.false_ne_true, hpaid, hword _ hmade,
      show toInt256 step.amountOut = _ from hword _ (lt_of_le_of_lt hused hlt)]
    show (checkedInt256 _ >>= fun c => Except.ok (int256 _, c)) = _
    rw [show specified false amount + (step.amountOut : ℤ) =
      specified false amount - specified false (step.used false) from (sub_neg_eq_add _ _).symm,
      hleft]
    rfl

section Loop

variable {q : Quoter} {swap : Swap} (hq : q.Lawful swap.exactInput) (hswap : swap.Lawful q.tickMath)
  {start state : WalkState} {amount : ℕ}

include hq in
/-- A turn of the loop is a turn of the walk. -/
theorem swapTurn_eq (hpos : 0 < amount) (hlt : amount < 2 ^ 255) :
    swapTurn q swap (specified swap.exactInput amount) state =
      ((walk q swap).move state amount).map fun r =>
        (specified swap.exactInput (amount - r.2), r.1) := by
  have hstep := hq.step swap.zeroForOne
  have hused : (stepOf q swap state (specified swap.exactInput amount)).used swap.exactInput ≤
      amount := hstep.used_le _ _ _ _ _ hpos
  have hmade : (stepOf q swap state (specified swap.exactInput amount)).made swap.exactInput <
      2 ^ 255 := hstep.fits _ _ _ _ _ hpos
  unfold swapTurn walk
  dsimp only
  rw [settle_eq hlt hused hmade]
  cases checkedInt256 (state.amountCalculated + calculated swap.exactInput
      ((stepOf q swap state (specified swap.exactInput amount)).made swap.exactInput)) with
  | error e => rfl
  | ok amountCalculated =>
    cases shiftTick q swap state
        (stepOf q swap state (specified swap.exactInput amount)).sqrtRatioNextX96 with
    | error e => rfl
    | ok shifted => rfl

/-! ## What the loop notes -/

/-- What is noted for an amount: what its stand-in leads to.  Of an amount that is not exhausted
something is missing. -/
def Noted (q : Quoter) (swap : Swap) (start : WalkState) (amounts : ℕ × ℕ) (result : ℤ × ℤ) :
    Prop :=
  ∃ t left missing, (walk q swap).Drains start amounts.2 t left ∧ (missing = 0 ↔ left = 0) ∧
    missing ≤ amounts.1 ∧
      result = deltas swap (specified swap.exactInput (amounts.1 - missing)) t.amountCalculated

/-- How the loop ends: something is noted for each amount, or one of them leads nowhere. -/
def Outcome (q : Quoter) (swap : Swap) (start : WalkState) (amounts : List ℕ) :
    Except Revert (List (ℤ × ℤ)) → Prop
  | .ok results => List.Forall₂ (Noted q swap start) (amounts.zip (stalled amounts)) results
  | .error _ => ∃ b ∈ stalled amounts, ∀ t left, ¬ (walk q swap).Drains start b t left

theorem forall₂_zip_map {α β γ : Type*} {R : α × β → γ → Prop} {f : α → γ} {as : List α}
    {bs : List β} (hlength : bs.length = as.length) (h : ∀ p ∈ as.zip bs, R p (f p.1)) :
    List.Forall₂ R (as.zip bs) (as.map f) := by
  induction as generalizing bs with
  | nil => exact .nil
  | cons a as ih =>
    cases bs with
    | nil => cases hlength
    | cons b bs =>
      refine .cons (h (a, b) List.mem_cons_self) (ih (Nat.succ.inj hlength) fun p hp => ?_)
      exact h p (List.mem_cons_of_mem _ hp)

/-- The amounts after the first noted one. -/
theorem outcome_cons {b : ℕ} {rest : List ℕ} {outcome : Except Revert (List (ℤ × ℤ))}
    {result : ℤ × ℤ} (hne : b ≠ amount) (hnoted : Noted q swap start (amount, amount) result)
    (h : Outcome q swap start (b :: rest) outcome) :
    Outcome q swap start (amount :: b :: rest)
      (outcome >>= fun results => .ok (result :: results)) := by
  have hstalled := stalled_of_ne rest hne
  cases outcome with
  | error e =>
    obtain ⟨c, hc, hnowhere⟩ := h
    exact ⟨c, hstalled ▸ List.mem_cons_of_mem _ hc, hnowhere⟩
  | ok results =>
    show List.Forall₂ _ ((amount :: b :: rest).zip (stalled (amount :: b :: rest))) _
    rw [hstalled]
    exact .cons hnoted h

/-- A walk that has ended notes the same for every amount. -/
theorem outcome_done {remaining : ℕ} {rest : List ℕ} (hle : remaining ≤ amount)
    (hpos : 0 < remaining) (hleads : (walk q swap).Leads start (amount - remaining) state)
    (hdone : (walk q swap).done state = true) (hsorted : (amount :: rest).Pairwise (· ≤ ·))
    (hfits : ∀ a ∈ amount :: rest, a < 2 ^ 255) :
    Outcome q swap start (amount :: rest) (.ok ((amount :: rest).map fun a =>
      deltas swap (int256 (specified swap.exactInput a - specified swap.exactInput remaining))
        state.amountCalculated)) := by
  apply forall₂_zip_map (length_stalled _)
  rintro ⟨a, b⟩ hp
  have hamount : amount ≤ a := by
    rcases List.mem_cons.mp (List.of_mem_zip hp).1 with rfl | ha
    · exact le_rfl
    · exact (List.pairwise_cons.mp hsorted).1 a ha
  have hb := le_of_mem_stalled hsorted (List.of_mem_zip hp).2
  have ha := hfits a (List.of_mem_zip hp).1
  refine ⟨state, remaining + (b - amount), remaining, ?_, by omega, by dsimp only; omega, ?_⟩
  · have hsum : b = amount - remaining + (remaining + (b - amount)) := by omega
    dsimp only
    rw [hsum, hleads _ (by omega), ← hsum, Metered.Drains.stop_iff (.inr hdone)]
    exact ⟨rfl, rfl⟩
  · dsimp only
    rw [specified_sub _ (hle.trans hamount),
      int256_of_fits (fits_specified _ (lt_of_le_of_lt (Nat.sub_le _ _) ha))]

/-- Nothing more is walked after a repeated amount. -/
theorem outcome_repeated {rest : List ℕ} (hfits : ∀ a ∈ amount :: rest, a < 2 ^ 255)
    (hdrains : (walk q swap).Drains start amount state 0) :
    Outcome q swap start (amount :: amount :: rest)
      (.ok (deltas swap (specified swap.exactInput amount) state.amountCalculated ::
        (amount :: rest).map fun a =>
          deltas swap (int256 (specified swap.exactInput a - 0)) state.amountCalculated)) := by
  have hstalled : stalled (amount :: amount :: rest) =
      amount :: amount :: rest.map fun _ => amount :=
    if_pos rfl
  show List.Forall₂ _ ((amount :: amount :: rest).zip (stalled (amount :: amount :: rest))) _
  rw [hstalled]
  refine .cons ⟨state, 0, 0, hdrains, Iff.rfl, Nat.zero_le _, rfl⟩ ?_
  apply forall₂_zip_map (by simp)
  rintro ⟨a, b⟩ hp
  have hmem : b ∈ stalled (amount :: amount :: rest) :=
    hstalled ▸ List.mem_cons_of_mem _ (List.of_mem_zip hp).2
  have hb := mem_stalled_repeated hmem
  have ha := hfits a (List.of_mem_zip hp).1
  subst hb
  refine ⟨state, 0, 0, hdrains, Iff.rfl, Nat.zero_le _, ?_⟩
  dsimp only
  rw [sub_zero, Nat.sub_zero, int256_of_fits (fits_specified _ ha)]

/-- Turns that are enough from a state on: one where the walk ends, else one for each tick and for
each amount. -/
def EnoughTurns (q : Quoter) (swap : Swap) (state : WalkState) (amounts turns : ℕ) : Prop :=
  if (walk q swap).done state then 0 < turns else ticksLeft q swap state.tick + amounts + 1 ≤ turns

/-- With nothing left, the loop notes the same for every amount. -/
theorem multiswapLoop_zero (turns : ℕ) (state : WalkState) (amount : ℤ) (amounts : List ℤ) :
    multiswapLoop q swap (turns + 1) 0 state amount amounts =
      .ok ((amount :: amounts).map fun a =>
        deltas swap (int256 (a - 0)) state.amountCalculated) := by
  unfold multiswapLoop
  rw [if_pos (.inl rfl)]

include hq hswap in
/-- The loop from where some of the current amount has been walked: what is left of it leads where
the amount leads.  By induction on the turns. -/
theorem multiswapLoop_outcome {turns : ℕ} {remaining : ℕ} {rest : List ℕ}
    (hstate : InRange q swap state)
    (hleads : (walk q swap).Leads start (amount - remaining) state) (hpos : 0 < remaining)
    (hle : remaining ≤ amount) (hsorted : (amount :: rest).Pairwise (· ≤ ·))
    (hfits : ∀ a ∈ amount :: rest, a < 2 ^ 255)
    (hturns : EnoughTurns q swap state (rest.length + 1) turns) :
    Outcome q swap start (amount :: rest)
      (multiswapLoop q swap turns (specified swap.exactInput remaining) state
        (specified swap.exactInput amount) (rest.map (specified swap.exactInput))) := by
  have hwalk := walk_exact hq hswap
  induction turns generalizing state amount remaining rest with
  | zero =>
    have hleft := ticksLeft_nonneg hstate
    unfold EnoughTurns at hturns
    split at hturns <;> omega
  | succ turns ih =>
    have hremaining : specified swap.exactInput remaining ≠ 0 := by
      rw [Ne, specified_eq_zero]
      omega
    have hamount := hfits amount List.mem_cons_self
    have hamount_split : amount - remaining + remaining = amount := Nat.sub_add_cancel hle
    unfold multiswapLoop
    cases hdone : (walk q swap).done state with
    | true =>
      have hlimit : state.sqrtPriceX96 = swap.sqrtPriceLimitX96 := of_decide_eq_true hdone
      rw [if_pos (.inr hlimit)]
      rw [← List.map_cons, List.map_map]
      exact outcome_done hle hpos hleads hdone hsorted hfits
    | false =>
      have hlimit : state.sqrtPriceX96 ≠ swap.sqrtPriceLimitX96 := of_decide_eq_false hdone
      unfold EnoughTurns at hturns
      rw [hdone, if_neg Bool.false_ne_true] at hturns
      rw [if_neg (by tauto), swapTurn_eq hq hpos (lt_of_le_of_lt hle hamount)]
      cases hmove : (walk q swap).move state remaining with
      | error e =>
        -- what is left of the amount leads nowhere
        obtain ⟨rest', hstalled⟩ := stalled_cons amount rest
        refine ⟨amount, hstalled ▸ List.mem_cons_self, fun t left hdrains => ?_⟩
        rw [← hamount_split, hleads remaining hpos, Metered.Drains.turn_iff hpos hdone] at hdrains
        obtain ⟨_, _, hmove', _⟩ := hdrains
        rw [hmove] at hmove'
        cases hmove'
      | ok r =>
        obtain ⟨state', used⟩ := r
        have hstate' := move_inRange hq hswap hstate hpos hmove
        have hused := hwalk.used_le hstate hdone hpos hmove
        obtain ⟨hticks, hprogress⟩ := move_progress hq hswap hstate hpos hmove
        have hleft := ticksLeft_nonneg hstate'
        show Outcome q swap start (amount :: rest)
          (if specified swap.exactInput (remaining - used) = 0 then _ else _)
        rcases hused.lt_or_eq with hlt | rfl
        · -- the amount is not exhausted: a tick is crossed, or the walk ends
          rw [if_neg (by rw [specified_eq_zero]; omega)]
          apply ih hstate' _ (by omega) (by omega) hsorted hfits
          · unfold EnoughTurns
            split
            · omega
            · rcases hprogress hlt with hdone' | hcrossed
              · contradiction
              · omega
          · have hpaid : amount - (remaining - used) = amount - remaining + used := by omega
            rw [hpaid]
            exact hleads.turn hwalk hstate hdone hpos hmove hlt
        · -- the amount is exhausted
          have hexhausted : (walk q swap).Drains state used state' 0 := by
            apply Metered.Drains.turn hpos hdone hmove
            rw [Nat.sub_self]
            exact .stop (.inl rfl)
          have hdrains : (walk q swap).Drains start amount state' 0 := by
            rw [← hamount_split, hleads used hpos]
            exact hexhausted
          have hnoted : Noted q swap start (amount, amount)
              (deltas swap (specified swap.exactInput amount) state'.amountCalculated) :=
            ⟨state', 0, 0, hdrains, Iff.rfl, Nat.zero_le _, rfl⟩
          rw [Nat.sub_self, if_pos (specified_zero _)]
          cases rest with
          | nil => exact .cons hnoted .nil
          | cons next rest =>
            obtain ⟨hnext, hrest⟩ := List.pairwise_cons.mp hsorted
            have hnext := hnext next List.mem_cons_self
            have hsub : sub (specified swap.exactInput next) (specified swap.exactInput amount) =
                .ok (specified swap.exactInput (next - amount)) := by
              have hlt := hfits next (List.mem_cons_of_mem _ List.mem_cons_self)
              rw [← specified_sub _ hnext]
              apply checkedInt256_eq_ok.mpr ⟨?_, rfl⟩
              rw [specified_sub _ hnext]
              exact fits_specified _ (by omega)
            show Outcome q swap start (amount :: next :: rest)
              (sub (specified swap.exactInput next) (specified swap.exactInput amount) >>= _)
            rw [hsub]
            by_cases hrepeated : next = amount
            · -- nothing is left to walk, and the loop ends
              subst hrepeated
              cases turns with
              | zero => omega
              | succ turns =>
                rw [Nat.sub_self, specified_zero]
                have hrepeated := outcome_repeated
                  (fun a ha => hfits a (List.mem_cons_of_mem _ ha)) hdrains
                show Outcome q swap start (next :: next :: rest)
                  (multiswapLoop q swap (turns + 1) 0 state' (specified swap.exactInput next)
                    (rest.map (specified swap.exactInput)) >>= fun results =>
                      .ok (deltas swap (specified swap.exactInput next)
                        state'.amountCalculated :: results))
                rw [multiswapLoop_zero, ← List.map_cons, List.map_map]
                exact hrepeated
            · apply outcome_cons hrepeated hnoted
              apply ih hstate' _ (by omega) (by omega) hrest
                (fun a ha => hfits a (List.mem_cons_of_mem _ ha))
              · unfold EnoughTurns
                rw [List.length_cons] at hturns
                split <;> omega
              · have hpaid : next - (next - amount) = amount - used + used := by omega
                rw [hpaid]
                exact hleads.drains hwalk hstate hpos hexhausted

end Loop

/-! ## `multiswap` -/

theorem monotone_iff {amounts : List ℕ} : monotone amounts = true ↔ amounts.Pairwise (· ≤ ·) := by
  induction amounts with
  | nil => exact ⟨fun _ => .nil, fun _ => rfl⟩
  | cons a rest ih =>
    cases rest with
    | nil => exact ⟨fun _ => List.pairwise_singleton _ _, fun _ => rfl⟩
    | cons b rest =>
      unfold monotone
      rw [Bool.and_eq_true, decide_eq_true_iff, ih]
      constructor
      · rintro ⟨hle, hrest⟩
        refine .cons (fun c hc => ?_) hrest
        rcases List.mem_cons.mp hc with rfl | hc
        · exact hle
        · exact hle.trans ((List.pairwise_cons.mp hrest).1 c hc)
      · intro h
        obtain ⟨hle, hrest⟩ := List.pairwise_cons.mp h
        exact ⟨hle b List.mem_cons_self, hrest⟩

/-- What is received by a swap, as its deltas say. -/
theorem deltas_received (swap : Swap) (amountSpecified amountCalculated : ℤ) :
    (if swap.zeroForOne then (deltas swap amountSpecified amountCalculated).2
      else (deltas swap amountSpecified amountCalculated).1) =
        if swap.exactInput then amountCalculated else amountSpecified := by
  obtain ⟨pool, zeroForOne, exactInput, limit⟩ := swap
  cases zeroForOne <;> cases exactInput <;> rfl

/-- What is paid for a swap, as its deltas say. -/
theorem deltas_paid (swap : Swap) (amountSpecified amountCalculated : ℤ) :
    (if swap.zeroForOne then (deltas swap amountSpecified amountCalculated).1
      else (deltas swap amountSpecified amountCalculated).2) =
        if swap.exactInput then amountSpecified else amountCalculated := by
  obtain ⟨pool, zeroForOne, exactInput, limit⟩ := swap
  cases zeroForOne <;> cases exactInput <;> rfl

/-- The swap that a quoter makes over a pool. -/
def Pool.swap (pool : Pool) (tickMath : TickMath) (zeroForOne exactInput : Bool) : Swap :=
  ⟨pool, zeroForOne, exactInput, priceLimit tickMath zeroForOne⟩

theorem multiswap_outcome {q : Quoter} {exactInput : Bool} (hq : q.Lawful exactInput) {pool : Pool}
    (hpool : pool.Sound q.tickMath) (zeroForOne : Bool) {amounts : List ℕ} (hne : amounts ≠ [])
    (hpos : ∀ a ∈ amounts, 0 < a) (hsorted : amounts.Pairwise (· ≤ ·))
    (hfits : ∀ a ∈ amounts, a < 2 ^ 255) :
    Outcome q (pool.swap q.tickMath zeroForOne exactInput) pool.start amounts
      (multiswap q pool zeroForOne (amounts.map (specified exactInput))
        (priceLimit q.tickMath zeroForOne)) := by
  cases amounts with
  | nil => exact absurd rfl hne
  | cons amount rest =>
    have hamount := hpos amount List.mem_cons_self
    have hkind : decide (specified exactInput amount > 0) = exactInput := by
      unfold specified
      cases exactInput with
      | true => simp [hamount]
      | false => simp
    have hstart := hpool.start_inRange zeroForOne exactInput
    show Outcome q _ _ _ (multiswapLoop q
      ⟨pool, zeroForOne, decide (specified exactInput amount > 0),
      priceLimit q.tickMath zeroForOne⟩ _ _ _ _ _)
    rw [hkind]
    refine multiswapLoop_outcome hq (hpool.swap_lawful zeroForOne exactInput) hstart ?_ hamount
      le_rfl hsorted hfits ?_
    · rw [Nat.sub_self]
      exact Metered.Leads.refl _ _
    · have hticks := ticksLeft_le hstart
      unfold EnoughTurns turnsFor
      rw [List.length_map, List.length_cons]
      split <;> omega

end ZeroExApi.MultiQuoter
