/-
# ZeroExApi.ExactOutput — what a path asks for the amounts it is to deliver

`quoteExactMultiOutput` walks a path backwards: what a pool asks for an amount is what the next pool
has to deliver.  A path delivers an amount for another one (`Delivers`) if each of its pools does;
it is short of an amount (`Short`) if one of its pools runs out of liquidity.

The quotes of several amounts are those of their stand-ins (`quoteExactMultiOutput_eq_ok`).  So they
are the quotes of the amounts one by one exactly if, after a repeated amount, the path is short of
it and of the larger ones, or there are none (`quotes_eq_singles_iff`).
-/

import ZeroExApi.MultiSwap

namespace ZeroExApi.MultiQuoter

open ZeroExApi.Lib ZeroExApi.Lib.Fallible

/-! ## What is received in full -/

/-- Amounts and what they are received for, up to the first one that is missing. -/
def Received (For : ℕ → ℕ → Prop) (Missing : ℕ → Prop) : List ℕ → List ℕ → Prop
  | bs, [] => ∀ b ∈ bs, Missing b
  | b :: bs, x :: xs => For b x ∧ Received For Missing bs xs
  | [], _ :: _ => False

section Received

variable {For For' : ℕ → ℕ → Prop} {Missing Missing' : ℕ → Prop} {bs xs ys : List ℕ}

theorem received_nil : Received For Missing bs [] ↔ ∀ b ∈ bs, Missing b := by
  unfold Received
  cases bs with
  | nil => exact Iff.rfl
  | cons b bs => exact Iff.rfl

theorem Received.missing_or (h : Received For Missing bs xs) {b : ℕ} (hb : b ∈ bs) :
    Missing b ∨ ∃ x ∈ xs, For b x := by
  induction bs generalizing xs with
  | nil => cases hb
  | cons c bs ih =>
    cases xs with
    | nil => exact .inl (h b hb)
    | cons x xs =>
      rcases List.mem_cons.mp hb with rfl | hb
      · exact .inr ⟨x, List.mem_cons_self, h.1⟩
      · rcases ih h.2 hb with hmissing | ⟨y, hy, hfor⟩
        · exact .inl hmissing
        · exact .inr ⟨y, List.mem_cons_of_mem _ hy, hfor⟩

/-- What is received for what is received for the amounts. -/
theorem Received.comp (h : Received For Missing bs xs) (h' : Received For' Missing' xs ys) :
    Received (fun b y => ∃ x, For b x ∧ For' x y) (fun b => Missing b ∨ ∃ x, For b x ∧ Missing' x)
      bs ys := by
  induction ys generalizing bs xs with
  | nil =>
    rw [received_nil] at h' ⊢
    intro b hb
    rcases h.missing_or hb with hmissing | ⟨x, hx, hfor⟩
    · exact .inl hmissing
    · exact .inr ⟨x, hfor, h' x hx⟩
  | cons y ys ih =>
    cases xs with
    | nil => cases h'
    | cons x xs =>
      cases bs with
      | nil => cases h
      | cons b bs => exact ⟨⟨x, h.1, h'.1⟩, ih h.2 h'.2⟩

/-- Where there is no other pool, the amounts are received for themselves. -/
theorem Received.refl (xs : List ℕ) : Received (fun x y => y = x) (fun _ => False) xs xs := by
  induction xs with
  | nil => exact fun x hx => absurd hx List.not_mem_nil
  | cons x xs ih => exact ⟨rfl, ih⟩

theorem Received.exists_of_mem (h : Received For Missing bs xs) {x : ℕ} (hx : x ∈ xs) :
    ∃ b ∈ bs, For b x := by
  induction bs generalizing xs with
  | nil =>
    cases xs with
    | nil => cases hx
    | cons y xs => cases h
  | cons b bs ih =>
    cases xs with
    | nil => cases hx
    | cons y xs =>
      rcases List.mem_cons.mp hx with rfl | hx
      · exact ⟨b, List.mem_cons_self, h.1⟩
      · obtain ⟨c, hc, hfor⟩ := ih h.2 hx
        exact ⟨c, List.mem_cons_of_mem _ hc, hfor⟩

/-- An amount that is the only one is received once or not at all. -/
theorem Received.of_forall_eq {b : ℕ} (h : Received For Missing bs xs)
    (hfor : ∀ {b x y}, For b x → For b y → x = y) (hbs : ∀ c ∈ bs, c = b) {x y : ℕ} (hx : x ∈ xs)
    (hy : y ∈ xs) : x = y := by
  obtain ⟨c, hc, hcx⟩ := h.exists_of_mem hx
  obtain ⟨d, hd, hdy⟩ := h.exists_of_mem hy
  rw [hbs c hc] at hcx
  rw [hbs d hd] at hdy
  exact hfor hcx hdy

/-- What is received for stand-ins are stand-ins, if more is received for more. -/
theorem Received.standIns (h : Received For Missing bs xs)
    (hfor : ∀ {b x y}, For b x → For b y → x = y)
    (hmore : ∀ {b c x y}, b < c → For b x → For c y → x < y) (hbs : stalled bs = bs)
    (hsorted : bs.Pairwise (· ≤ ·)) :
    xs.Pairwise (· ≤ ·) ∧ stalled xs = xs := by
  induction bs generalizing xs with
  | nil =>
    cases xs with
    | nil => exact ⟨.nil, rfl⟩
    | cons y xs => cases h
  | cons b bs ih =>
    cases xs with
    | nil => exact ⟨.nil, rfl⟩
    | cons x xs =>
      cases xs with
      | nil => exact ⟨List.pairwise_singleton _ _, rfl⟩
      | cons y ys =>
        cases bs with
        | nil => cases h.2
        | cons c cs =>
          obtain ⟨hle, hsorted'⟩ := List.pairwise_cons.mp hsorted
          by_cases hrepeated : c = b
          · -- only one amount is asked for
            have hsame : ∀ d ∈ b :: c :: cs, d = b := by
              intro d hd
              rw [hrepeated] at hbs hd
              exact mem_stalled_repeated (hbs.symm ▸ hd)
            have hxs : ∀ {z w}, z ∈ x :: y :: ys → w ∈ x :: y :: ys → z = w :=
              fun hz hw => h.of_forall_eq hfor hsame hz hw
            constructor
            · exact List.pairwise_of_forall_mem_list fun z hz w hw => (hxs hz hw).le
            · exact stalled_of_forall_eq fun z hz =>
                hxs (List.mem_cons_of_mem _ hz) List.mem_cons_self
          · have hlt : b < c := lt_of_le_of_ne (hle c List.mem_cons_self) (Ne.symm hrepeated)
            have hxy := hmore hlt h.1 h.2.1
            rw [stalled_of_ne cs hrepeated] at hbs
            obtain ⟨hys, hstalled⟩ := ih h.2 (List.cons.inj hbs).2 hsorted'
            constructor
            · refine .cons (fun z hz => ?_) hys
              rcases List.mem_cons.mp hz with rfl | hz
              · exact hxy.le
              · exact hxy.le.trans ((List.pairwise_cons.mp hys).1 z hz)
            · rw [stalled_of_ne ys hxy.ne', hstalled]

end Received

/-! ## Pools and paths -/

section Pools

variable (q : Quoter) (factory : Factory)

/-- The swap by which a pool delivers for the path in reverse order. -/
def outputSwap (first : PathPool) : Swap :=
  (factory first).swap q.tickMath (decide (first.tokenB < first.tokenA)) false

/-- A pool delivers an amount for another one. -/
def PoolDelivers (first : PathPool) (amount paid : ℕ) : Prop :=
  ∃ t : WalkState, (walk q (outputSwap q factory first)).Drains (factory first).start amount t 0 ∧
    t.amountCalculated = paid

/-- A pool runs out of liquidity before it has delivered an amount. -/
def PoolShort (first : PathPool) (amount : ℕ) : Prop :=
  ∃ t left, (walk q (outputSwap q factory first)).Drains (factory first).start amount t left ∧
    0 < left

/-- A path delivers an amount for another one: each of its pools does, for what the pool before it
asks. -/
def Delivers : List PathPool → ℕ → ℕ → Prop
  | [], amount, paid => paid = amount
  | first :: path, amount, paid =>
    ∃ x, PoolDelivers q factory first amount x ∧ Delivers path x paid

/-- One of the pools of a path runs out of liquidity. -/
def Short : List PathPool → ℕ → Prop
  | [], _ => False
  | first :: path, amount =>
    PoolShort q factory first amount ∨ ∃ x, PoolDelivers q factory first amount x ∧ Short path x

end Pools

/-- What a swap gives out is paid for: the amount in is rounded up. -/
def Quoter.Paid (q : Quoter) : Prop :=
  ∀ zeroForOne price target liquidity amount fee, 0 < amount →
    let step := q.computeSwapStep zeroForOne price target liquidity (specified false amount) fee
    0 < step.used false → 0 < step.made false

/-! ## Results as words -/

theorem uint256_neg_specified {n : ℕ} (h : n < 2 ^ 255) : uint256 (-specified false n) = n := by
  show uint256 (-(-(n : ℤ))) = n
  rw [neg_neg]
  exact uint256_natCast (by omega)

/-- The amounts as words. -/
theorem map_specified {amounts : List ℕ} (hfits : ∀ a ∈ amounts, a < 2 ^ 255) :
    (amounts.map fun a : ℕ => int256 (-int256 a)) = amounts.map (specified false) := by
  apply List.map_congr_left
  intro a ha
  have hlt := hfits a ha
  have hword : int256 a = a := int256_of_fits ⟨by omega, by omega⟩
  rw [hword]
  exact int256_of_fits ⟨by omega, by omega⟩

/-! ## What a pool delivers -/

section Pool

variable {q : Quoter} {factory : Factory} {first : PathPool} {a b x y : ℕ}

/-- A pool delivers an amount for one amount. -/
theorem PoolDelivers.unique (h : PoolDelivers q factory first a x)
    (h' : PoolDelivers q factory first a y) : x = y := by
  obtain ⟨t, ht, hx⟩ := h
  obtain ⟨u, hu, hy⟩ := h'
  obtain ⟨rfl, _⟩ := ht.unique hu
  omega

theorem PoolDelivers.not_short (h : PoolDelivers q factory first a x) :
    ¬ PoolShort q factory first a := by
  rintro ⟨u, left, hu, hleft⟩
  obtain ⟨t, ht, _⟩ := h
  obtain ⟨_, rfl⟩ := ht.unique hu
  exact absurd hleft (lt_irrefl _)

/-- What a turn delivers is paid for. -/
theorem move_paid (hpaid : q.Paid) {s s' : WalkState} {amount used : ℕ} (hpos : 0 < amount)
    (hmove : (walk q (outputSwap q factory first)).move s amount = .ok (s', used)) :
    s.amountCalculated ≤ s'.amountCalculated ∧
      (0 < used → s.amountCalculated < s'.amountCalculated) := by
  obtain ⟨hcalculated, _, _, hused⟩ := move_eq_ok.mp hmove
  have hsum := (checkedInt256_eq_ok.mp hcalculated).2
  have hmade : 0 < used → 0 < (stepOf q (outputSwap q factory first) s
      (specified false amount)).made false :=
    fun h => hpaid _ _ _ _ _ _ hpos (hused ▸ h)
  change s.amountCalculated + ((stepOf q (outputSwap q factory first) s
    (specified false amount)).made false : ℤ) = s'.amountCalculated at hsum
  constructor <;> omega

variable (hq : q.Lawful false) (hpool : (factory first).Sound q.tickMath)
include hq hpool

theorem outputWalk_exact : (walk q (outputSwap q factory first)).Exact
    (InRange q (outputSwap q factory first)) :=
  walk_exact hq (hpool.swap_lawful _ false)

/-- What is asked for an amount fits a word. -/
theorem amountCalculated_mem (hpaid : q.Paid) {t : WalkState} {left : ℕ}
    (h : (walk q (outputSwap q factory first)).Drains (factory first).start a t left) :
    0 ≤ t.amountCalculated ∧ t.amountCalculated < 2 ^ 255 := by
  have hstart := hpool.start_inRange (decide (first.tokenB < first.tokenA)) false
  have hle := h.mono (f := fun s => s.amountCalculated) (outputWalk_exact hq hpool) hstart
    fun _ hpos hmove => (move_paid hpaid hpos hmove).1
  exact ⟨hle, (h.good (outputWalk_exact hq hpool) hstart).fits.2⟩

theorem PoolDelivers.pos (hpaid : q.Paid) (ha : 0 < a) (h : PoolDelivers q factory first a x) :
    0 < x ∧ x < 2 ^ 255 := by
  obtain ⟨t, ht, hx⟩ := h
  have hstart := hpool.start_inRange (decide (first.tokenB < first.tokenA)) false
  have hlt := ht.lt_of_used (f := fun s => s.amountCalculated) (outputWalk_exact hq hpool) hstart
    (fun _ hpos hmove => move_paid hpaid hpos hmove) ha
  obtain ⟨_, hfits⟩ := amountCalculated_mem hq hpool hpaid ht
  have hzero : (factory first).start.amountCalculated = 0 := rfl
  omega

theorem PoolDelivers.lt (hpaid : q.Paid) (hlt : a < b) (h : PoolDelivers q factory first a x)
    (h' : PoolDelivers q factory first b y) : x < y := by
  obtain ⟨t, ht, hx⟩ := h
  obtain ⟨u, hu, hy⟩ := h'
  have hwalk := outputWalk_exact hq hpool
  have hstart := hpool.start_inRange (decide (first.tokenB < first.tokenA)) false
  -- the larger amount is the smaller one and then the rest
  have hsum : b = a + (b - a) := by omega
  rw [hsum, ht.add_iff hwalk hstart] at hu
  have hmore := hu.lt_of_used (f := fun s => s.amountCalculated) hwalk (ht.good hwalk hstart)
    (fun _ hpos hmove => move_paid hpaid hpos hmove) (by omega)
  omega

/-- What a pool is short of, it is short of for more. -/
theorem PoolShort.of_le (hle : a ≤ b) (h : PoolShort q factory first a) :
    PoolShort q factory first b := by
  obtain ⟨t, left, ht, hleft⟩ := h
  have hstart := hpool.start_inRange (decide (first.tokenB < first.tokenA)) false
  have hshort := ht.short (outputWalk_exact hq hpool) hstart hleft (b - a)
  rw [Nat.add_sub_cancel' hle] at hshort
  exact ⟨t, _, hshort, by omega⟩

/-- The amounts for the next pool are what the stand-ins are received for. -/
theorem nextAmounts_received (hpaid : q.Paid) {amounts bs : List ℕ} {results : List (ℤ × ℤ)}
    (hfits : ∀ a ∈ amounts, a < 2 ^ 255) (hlength : bs.length = amounts.length)
    (hsorted : bs.Pairwise (· ≤ ·))
    (h : List.Forall₂ (Noted q (outputSwap q factory first) (factory first).start)
      (amounts.zip bs) results) :
    Received (PoolDelivers q factory first) (PoolShort q factory first) bs
      (nextAmounts (decide (first.tokenB < first.tokenA)) results amounts) := by
  induction amounts generalizing bs results with
  | nil =>
    cases List.eq_nil_of_length_eq_zero hlength
    cases h
    exact received_nil.mpr fun b hb => absurd hb List.not_mem_nil
  | cons a amounts ih =>
    cases bs with
    | nil => cases hlength
    | cons b bs =>
      obtain ⟨hle, hsorted'⟩ := List.pairwise_cons.mp hsorted
      cases h with
      | @cons _ r _ results hnoted hrest =>
        obtain ⟨t, left, missing, ht, hmissing, hmissing_le, hr⟩ := hnoted
        have ha := hfits a List.mem_cons_self
        -- what is received is specified, and what is paid is calculated
        have hspecified : (if decide (first.tokenB < first.tokenA) then r.2 else r.1) =
            specified false (a - missing) := by
          rw [hr]
          exact deltas_received (outputSwap q factory first) _ _
        have hcalculated : (if decide (first.tokenB < first.tokenA) then r.1 else r.2) =
            t.amountCalculated := by
          rw [hr]
          exact deltas_paid (outputSwap q factory first) _ _
        have hreceived : uint256 (-specified false (a - missing)) = a - missing :=
          uint256_neg_specified (lt_of_le_of_lt (Nat.sub_le _ _) ha)
        unfold nextAmounts
        dsimp only
        rw [hspecified, hcalculated, hreceived]
        rcases Nat.eq_zero_or_pos left with rfl | hleft
        · have hzero := hmissing.mpr rfl
          obtain ⟨hnonneg, hlt⟩ := amountCalculated_mem hq hpool hpaid ht
          rw [hzero, Nat.sub_zero, if_neg (not_not.mpr rfl)]
          refine ⟨⟨t, ht, (uint256_of_nonneg hnonneg (by omega)).symm⟩, ?_⟩
          exact ih (fun c hc => hfits c (List.mem_cons_of_mem _ hc)) (Nat.succ.inj hlength)
            hsorted' hrest
        · have hne : a - missing ≠ a := by omega
          have hshort : PoolShort q factory first b := ⟨t, left, ht, hleft⟩
          rw [if_pos hne, received_nil]
          intro c hc
          rcases List.mem_cons.mp hc with rfl | hc
          · exact hshort
          · exact hshort.of_le hq hpool (hle c hc)

/-- Amounts that can be asked for. -/
structure Askable (amounts : List ℕ) : Prop where
  pos : ∀ a ∈ amounts, 0 < a
  fits : ∀ a ∈ amounts, a < 2 ^ 255
  sorted : amounts.Pairwise (· ≤ ·)

/-- The swap over a pool of a path. -/
def outputResults (q : Quoter) (factory : Factory) (first : PathPool) (amounts : List ℕ) :
    Except Revert (List (ℤ × ℤ)) :=
  multiswap q (factory first) (decide (first.tokenB < first.tokenA))
    (amounts.map fun a : ℕ => int256 (-int256 a))
    (priceLimit q.tickMath (decide (first.tokenB < first.tokenA)))

theorem outputResults_outcome {amounts : List ℕ} (hne : amounts ≠ []) (h : Askable amounts) :
    Outcome q (outputSwap q factory first) (factory first).start amounts
      (outputResults q factory first amounts) := by
  unfold outputResults
  rw [map_specified h.fits]
  exact multiswap_outcome hq hpool _ hne h.pos h.sorted h.fits

/-- A pool is asked for the stand-ins; what it asks for them can be asked for as well, and stands
for itself. -/
theorem outputResults_ok (hpaid : q.Paid) {amounts : List ℕ} (hne : amounts ≠ [])
    (h : Askable amounts) {results : List (ℤ × ℤ)}
    (hresults : outputResults q factory first amounts = .ok results) :
    let xs := nextAmounts (decide (first.tokenB < first.tokenA)) results amounts
    Received (PoolDelivers q factory first) (PoolShort q factory first) (stalled amounts) xs ∧
      Askable xs ∧ stalled xs = xs := by
  have houtcome := outputResults_outcome hq hpool hne h
  rw [hresults] at houtcome
  have hreceived := nextAmounts_received hq hpool hpaid h.fits (length_stalled amounts)
    (sorted_stalled h.sorted) houtcome
  obtain ⟨hsorted, hstalled⟩ := hreceived.standIns (fun h h' => h.unique h')
    (fun hlt h h' => h.lt hq hpool hpaid hlt h') (stalled_stalled amounts) (sorted_stalled h.sorted)
  have hword : ∀ x ∈ nextAmounts (decide (first.tokenB < first.tokenA)) results amounts,
      0 < x ∧ x < 2 ^ 255 := by
    intro x hx
    obtain ⟨b, hb, hdelivers⟩ := hreceived.exists_of_mem hx
    exact hdelivers.pos hq hpool hpaid (h.pos b (mem_of_mem_stalled hb))
  exact ⟨hreceived, ⟨fun x hx => (hword x hx).1, fun x hx => (hword x hx).2, hsorted⟩, hstalled⟩

/-- Where a pool reverts, it neither delivers one of the amounts nor is short of it. -/
theorem outputResults_error {amounts : List ℕ} (hne : amounts ≠ []) (h : Askable amounts)
    {e : Revert} (hresults : outputResults q factory first amounts = .error e) :
    ∃ b ∈ stalled amounts, (∀ x, ¬ PoolDelivers q factory first b x) ∧
      ¬ PoolShort q factory first b := by
  have houtcome := outputResults_outcome hq hpool hne h
  rw [hresults] at houtcome
  obtain ⟨b, hb, hnowhere⟩ := houtcome
  refine ⟨b, hb, ?_, ?_⟩
  · rintro x ⟨t, ht, _⟩
    exact hnowhere t 0 ht
  · rintro ⟨t, left, ht, _⟩
    exact hnowhere t left ht

end Pool

/-! ## What a path delivers -/

section Path

variable {q : Quoter} {factory : Factory} {path : List PathPool} {a b x y : ℕ}

theorem Delivers.unique (h : Delivers q factory path a x) (h' : Delivers q factory path a y) :
    x = y := by
  induction path generalizing a with
  | nil =>
    cases h
    cases h'
    rfl
  | cons first path ih =>
    obtain ⟨z, hz, h⟩ := h
    obtain ⟨w, hw, h'⟩ := h'
    cases hz.unique hw
    exact ih h h'

theorem Delivers.not_short (h : Delivers q factory path a x) : ¬ Short q factory path a := by
  induction path generalizing a with
  | nil => exact id
  | cons first path ih =>
    obtain ⟨z, hz, h⟩ := h
    rintro (hshort | ⟨w, hw, hshort⟩)
    · exact hz.not_short hshort
    · cases hz.unique hw
      exact ih h hshort

variable (hq : q.Lawful false) (hpaid : q.Paid)
  (hpools : ∀ first ∈ path, (factory first).Sound q.tickMath)
include hq hpaid hpools

theorem Delivers.pos (ha : 0 < a) (h : Delivers q factory path a x) : 0 < x := by
  induction path generalizing a with
  | nil =>
    cases h
    exact ha
  | cons first path ih =>
    obtain ⟨z, hz, h⟩ := h
    have hpool := hpools first List.mem_cons_self
    exact ih (fun p hp => hpools p (List.mem_cons_of_mem _ hp)) (hz.pos hq hpool hpaid ha).1 h

/-- A path asks more for more. -/
theorem Delivers.lt (hlt : a < b) (h : Delivers q factory path a x)
    (h' : Delivers q factory path b y) : x < y := by
  induction path generalizing a b with
  | nil =>
    cases h
    cases h'
    exact hlt
  | cons first path ih =>
    obtain ⟨z, hz, h⟩ := h
    obtain ⟨w, hw, h'⟩ := h'
    have hpool := hpools first List.mem_cons_self
    exact ih (fun p hp => hpools p (List.mem_cons_of_mem _ hp)) (hz.lt hq hpool hpaid hlt hw) h h'

/-- What is asked for several amounts is what the path asks for their stand-ins, up to the first one
it is short of. -/
theorem quoteOutputPath_received {amounts amountsIn : List ℕ} (hne : amounts ≠ [])
    (h : Askable amounts) (hquote : quoteOutputPath q factory path amounts = .ok amountsIn) :
    Received (Delivers q factory path) (Short q factory path) (stalled amounts) amountsIn := by
  induction path generalizing amounts with
  | nil => cases hquote
  | cons first path ih =>
    have hpool := hpools first List.mem_cons_self
    unfold quoteOutputPath at hquote
    obtain ⟨results, hresults, hquote⟩ := bind_eq_ok.mp hquote
    obtain ⟨hreceived, hxs, hstalled⟩ := outputResults_ok hq hpool hpaid hne h hresults
    dsimp only at hquote
    generalize nextAmounts (decide (first.tokenB < first.tokenA)) results amounts = xs at *
    have hrest : Received (Delivers q factory path) (Short q factory path) xs amountsIn := by
      split at hquote
      · rename_i hstop
        cases hquote
        rcases Bool.or_eq_true_iff.mp hstop with hempty | hempty
        · cases List.isEmpty_iff.mp hempty
          exact received_nil.mpr fun b hb => absurd hb List.not_mem_nil
        · cases List.isEmpty_iff.mp hempty
          exact Received.refl _
      · rename_i hgo
        rw [Bool.not_eq_true, Bool.or_eq_false_iff] at hgo
        rw [← hstalled]
        exact ih (fun p hp => hpools p (List.mem_cons_of_mem _ hp))
          (List.isEmpty_eq_false_iff.mp hgo.1) hxs hquote
    exact hreceived.comp hrest

/-- A quote is given where the path delivers each of the stand-ins or is short of it. -/
theorem quoteOutputPath_ok {amounts : List ℕ} (hpath : path ≠ []) (hne : amounts ≠ [])
    (h : Askable amounts) (hstandIns : ∀ b ∈ stalled amounts,
      (∃ x, Delivers q factory path b x) ∨ Short q factory path b) :
    ∃ amountsIn, quoteOutputPath q factory path amounts = .ok amountsIn := by
  induction path generalizing amounts with
  | nil => exact absurd rfl hpath
  | cons first path ih =>
    have hpool := hpools first List.mem_cons_self
    unfold quoteOutputPath
    show ∃ amountsIn, (outputResults q factory first amounts >>= _) = _
    cases hresults : outputResults q factory first amounts with
    | error e =>
      -- the pool does something for each of them
      obtain ⟨b, hb, hnone, hnot⟩ := outputResults_error hq hpool hne h hresults
      rcases hstandIns b hb with ⟨x, z, hz, _⟩ | hshort | ⟨z, hz, _⟩
      · exact absurd hz (hnone z)
      · exact absurd hshort hnot
      · exact absurd hz (hnone z)
    | ok results =>
      obtain ⟨hreceived, hxs, hstalled⟩ := outputResults_ok hq hpool hpaid hne h hresults
      show ∃ amountsIn,
        (let xs := nextAmounts (decide (first.tokenB < first.tokenA)) results amounts
        if xs.isEmpty || path.isEmpty then Except.ok xs else quoteOutputPath q factory path xs) =
          Except.ok amountsIn
      dsimp only
      generalize nextAmounts (decide (first.tokenB < first.tokenA)) results amounts = xs at *
      split
      · exact ⟨xs, rfl⟩
      · rename_i hgo
        rw [Bool.not_eq_true, Bool.or_eq_false_iff] at hgo
        apply ih (fun p hp => hpools p (List.mem_cons_of_mem _ hp))
          (List.isEmpty_eq_false_iff.mp hgo.2) (List.isEmpty_eq_false_iff.mp hgo.1) hxs
        intro x hx
        rw [hstalled] at hx
        obtain ⟨b, hb, hdelivers⟩ := hreceived.exists_of_mem hx
        rcases hstandIns b hb with ⟨y, z, hz, hrest⟩ | hshort | ⟨z, hz, hshort⟩
        · cases hdelivers.unique hz
          exact .inl ⟨y, hrest⟩
        · exact absurd hshort hdelivers.not_short
        · cases hdelivers.unique hz
          exact .inr hshort

end Path

/-! ## Quotes of several amounts -/

/-- What is quoted for an amount: what the path asks for it, or nothing where it is short of it. -/
def Quoted (q : Quoter) (factory : Factory) (path : List PathPool) (amountOut amountIn : ℕ) :
    Prop :=
  Delivers q factory path amountOut amountIn ∨ Short q factory path amountOut ∧ amountIn = 0

theorem Received.padded {For : ℕ → ℕ → Prop} {Missing : ℕ → Prop} {bs xs : List ℕ}
    (h : Received For Missing bs xs) :
    List.Forall₂ (fun b r => For b r ∨ Missing b ∧ r = 0) bs
      (xs ++ List.replicate (bs.length - xs.length) 0) := by
  induction bs generalizing xs with
  | nil =>
    cases xs with
    | nil => exact .nil
    | cons x xs => cases h
  | cons b bs ih =>
    cases xs with
    | nil =>
      rw [received_nil] at h
      refine .cons (.inr ⟨h b List.mem_cons_self, rfl⟩) ?_
      exact ih (received_nil.mpr fun c hc => h c (List.mem_cons_of_mem _ hc))
    | cons x xs =>
      rw [List.length_cons, List.length_cons, Nat.add_sub_add_right]
      exact .cons (.inl h.1) (ih h.2)

section Quotes

variable {q : Quoter} {factory : Factory} {path : List PathPool} {a b r : ℕ}
  {amountsOut amountsIn : List ℕ}

/-- What a quote of several amounts goes through. -/
theorem quoteExactMultiOutput_eq_ok :
    quoteExactMultiOutput q factory path amountsOut = .ok amountsIn ↔
      amountsOut ≠ [] ∧ amountsOut.Pairwise (· ≤ ·) ∧
        ∃ xs, quoteOutputPath q factory path amountsOut = .ok xs ∧
          amountsIn = xs ++ List.replicate (amountsOut.length - xs.length) 0 := by
  unfold quoteExactMultiOutput
  constructor
  · intro h
    split at h
    · cases h
    · rename_i hne
      split at h
      · cases h
      · rename_i hmonotone
        obtain ⟨xs, hxs, h⟩ := bind_eq_ok.mp h
        cases h
        exact ⟨fun hnil => hne (List.isEmpty_iff.mpr hnil),
          monotone_iff.mp (by simpa using hmonotone), xs, hxs, rfl⟩
  · rintro ⟨hne, hsorted, xs, hxs, rfl⟩
    rw [if_neg (by simpa using hne), if_neg (by simp [monotone_iff.mpr hsorted])]
    exact bind_eq_ok.mpr ⟨xs, hxs, rfl⟩

theorem Quoted.unique (h : Quoted q factory path a r) {r' : ℕ} (h' : Quoted q factory path a r') :
    r = r' := by
  rcases h with h | ⟨h, rfl⟩
  · rcases h' with h' | ⟨h', _⟩
    · exact h.unique h'
    · exact absurd h' h.not_short
  · rcases h' with h' | ⟨_, rfl⟩
    · exact absurd h h'.not_short
    · rfl

variable (hq : q.Lawful false) (hpaid : q.Paid)
  (hpools : ∀ first ∈ path, (factory first).Sound q.tickMath)
include hq hpaid hpools

/-- Two amounts have the same quote only where the path is short of both. -/
theorem Quoted.short (ha : 0 < a) (hlt : a < b) (h : Quoted q factory path a r)
    (h' : Quoted q factory path b r) : Short q factory path a ∧ Short q factory path b := by
  rcases h with h | ⟨h, hr⟩
  · rcases h' with h' | ⟨h', hr'⟩
    · exact absurd (h.lt hq hpaid hpools hlt h') (lt_irrefl _)
    · exact absurd hr' (h.pos hq hpaid hpools ha).ne'
  · rcases h' with h' | ⟨h', _⟩
    · exact absurd hr (h'.pos hq hpaid hpools (by omega)).ne'
    · exact ⟨h, h'⟩

/-- A quote of nothing says that the path does not deliver. -/
theorem Quoted.eq_zero_iff (ha : 0 < a) (h : Quoted q factory path a r) :
    r = 0 ↔ ¬ ∃ paid, Delivers q factory path a paid := by
  rcases h with h | ⟨h, rfl⟩
  · exact ⟨fun hr => absurd hr (h.pos hq hpaid hpools ha).ne', fun hnone => absurd ⟨r, h⟩ hnone⟩
  · refine ⟨fun _ => ?_, fun _ => rfl⟩
    rintro ⟨paid, hdelivers⟩
    exact hdelivers.not_short h

/-- The quotes of several amounts are those of their stand-ins, those of nothing at the end. -/
theorem quotes_of_standIns (hpos : ∀ a ∈ amountsOut, 0 < a) (hfits : ∀ a ∈ amountsOut, a < 2 ^ 255)
    (hquote : quoteExactMultiOutput q factory path amountsOut = .ok amountsIn) :
    List.Forall₂ (Quoted q factory path) (stalled amountsOut) amountsIn ∧
      ∃ xs n, amountsIn = xs ++ List.replicate n 0 ∧ ∀ x ∈ xs, 0 < x := by
  obtain ⟨hne, hsorted, xs, hxs, rfl⟩ := quoteExactMultiOutput_eq_ok.mp hquote
  have hreceived := quoteOutputPath_received hq hpaid hpools hne ⟨hpos, hfits, hsorted⟩ hxs
  constructor
  · rw [← length_stalled amountsOut]
    exact hreceived.padded
  · refine ⟨xs, _, rfl, fun x hx => ?_⟩
    obtain ⟨b, hb, hdelivers⟩ := hreceived.exists_of_mem hx
    exact hdelivers.pos hq hpaid hpools (hpos b (mem_of_mem_stalled hb))

/-- The quote of one amount. -/
theorem quote_single_iff (hpath : path ≠ []) (ha : 0 < a) (hfits : a < 2 ^ 255) :
    quoteExactMultiOutput q factory path [a] = .ok [r] ↔ Quoted q factory path a r := by
  have hpos : ∀ b ∈ [a], 0 < b := fun b hb => List.mem_singleton.mp hb ▸ ha
  have hfits : ∀ b ∈ [a], b < 2 ^ 255 := fun b hb => List.mem_singleton.mp hb ▸ hfits
  have honly : ∀ {rs}, quoteExactMultiOutput q factory path [a] = .ok rs →
      ∃ r, rs = [r] ∧ Quoted q factory path a r := by
    intro rs hquote
    cases (quotes_of_standIns hq hpaid hpools hpos hfits hquote).1 with
    | cons h hnil =>
      cases hnil
      exact ⟨_, rfl, h⟩
  constructor
  · intro hquote
    obtain ⟨_, heq, h⟩ := honly hquote
    cases heq
    exact h
  · intro h
    have hstandIns : ∀ b ∈ stalled [a],
        (∃ x, Delivers q factory path b x) ∨ Short q factory path b := by
      intro b hb
      cases List.mem_singleton.mp hb
      exact h.imp (fun h => ⟨r, h⟩) And.left
    obtain ⟨xs, hxs⟩ := quoteOutputPath_ok hq hpaid hpools hpath (List.cons_ne_nil a [])
      ⟨hpos, hfits, List.pairwise_singleton _ _⟩ hstandIns
    have hquote := quoteExactMultiOutput_eq_ok.mpr
      ⟨List.cons_ne_nil a [], List.pairwise_singleton _ _, xs, hxs, rfl⟩
    obtain ⟨r', heq, h'⟩ := honly hquote
    rw [hquote, heq, h.unique h']

end Quotes

/-! ## Several amounts and one by one -/

/-- The quotes of several amounts are those of the amounts one by one, nothing is quoted exactly for
what the path does not deliver, and that is at the end. -/
structure QuotesAgree (q : Quoter) (factory : Factory) (path : List PathPool)
    (amountsOut amountsIn : List ℕ) : Prop where
  singles : List.Forall₂ (fun amountOut amountIn =>
    quoteExactMultiOutput q factory path [amountOut] = .ok [amountIn] ∧
      (amountIn = 0 ↔ ¬ ∃ paid, Delivers q factory path amountOut paid)) amountsOut amountsIn
  suffix : ∃ xs n, amountsIn = xs ++ List.replicate n 0 ∧ ∀ x ∈ xs, 0 < x

/-- Where an amount is repeated and a larger one follows, the path is short of both. -/
def ShortAfterRepeat (q : Quoter) (factory : Factory) (path : List PathPool)
    (amountsOut : List ℕ) : Prop :=
  ∀ before a b after, amountsOut = before ++ a :: a :: after → b ∈ after → a < b →
    Short q factory path a ∧ Short q factory path b

section Agree

variable {q : Quoter} {factory : Factory} {path : List PathPool} {a b : ℕ}
  {amountsOut amountsIn : List ℕ}

theorem ShortAfterRepeat.tail (h : ShortAfterRepeat q factory path (a :: amountsOut)) :
    ShortAfterRepeat q factory path amountsOut :=
  fun before b c after heq hc hlt => h (a :: before) b c after (congrArg (a :: ·) heq) hc hlt

theorem shortAfterRepeat_cons (hne : b ≠ a)
    (h : ShortAfterRepeat q factory path (b :: amountsOut)) :
    ShortAfterRepeat q factory path (a :: b :: amountsOut) := by
  intro before c d after heq hd hlt
  cases before with
  | nil =>
    obtain ⟨rfl, heq⟩ := List.cons.inj heq
    exact absurd (List.cons.inj heq).1 hne
  | cons a' before => exact h before c d after (List.cons.inj heq).2 hd hlt

/-- The quotes of the stand-ins are those of the amounts where the path is short after a repeated
amount. -/
theorem quoted_of_standIns (hsorted : amountsOut.Pairwise (· ≤ ·))
    (hshort : ShortAfterRepeat q factory path amountsOut)
    (h : List.Forall₂ (Quoted q factory path) (stalled amountsOut) amountsIn) :
    List.Forall₂ (Quoted q factory path) amountsOut amountsIn := by
  induction amountsOut generalizing amountsIn with
  | nil => exact h
  | cons a rest ih =>
    cases rest with
    | nil => exact h
    | cons b rest =>
      obtain ⟨hle, hsorted'⟩ := List.pairwise_cons.mp hsorted
      by_cases hrepeated : b = a
      · -- the repeated amount stands for all that follow
        subst hrepeated
        have hstalled : stalled (b :: b :: rest) = b :: b :: rest.map fun _ => b := if_pos rfl
        rw [hstalled] at h
        cases h with
        | cons hfirst h =>
          cases h with
          | cons hsecond h =>
            refine .cons hfirst (.cons hsecond ?_)
            have h := List.forall₂_iff_zip.mp (List.forall₂_map_left_iff.mp h)
            refine List.forall₂_iff_zip.mpr ⟨h.1, fun {c r} hmem => ?_⟩
            have hc := (List.of_mem_zip hmem).1
            have hquoted := h.2 hmem
            rcases (hle c (List.mem_cons_of_mem _ hc)).eq_or_lt with rfl | hlt
            · exact hquoted
            · obtain ⟨hshort_b, hshort_c⟩ := hshort [] b c rest rfl hc hlt
              rcases hquoted with hdelivers | ⟨_, rfl⟩
              · exact absurd hshort_b hdelivers.not_short
              · exact .inr ⟨hshort_c, rfl⟩
      · rw [stalled_of_ne rest hrepeated] at h
        cases h with
        | cons hfirst h => exact .cons hfirst (ih hsorted' hshort.tail h)

theorem exists_of_mem_forall₂ {α β : Type*} {R S : α → β → Prop} {as : List α} {bs : List β} {x : α}
    (h : List.Forall₂ R as bs) (h' : List.Forall₂ S as bs) (hx : x ∈ as) : ∃ y, R x y ∧ S x y := by
  induction h with
  | nil => cases hx
  | cons hfirst _ ih =>
    cases h' with
    | cons hfirst' hrest' =>
      rcases List.mem_cons.mp hx with rfl | hx
      · exact ⟨_, hfirst, hfirst'⟩
      · exact ih hrest' hx

/-- Where the quotes of the stand-ins are those of the amounts, the path is short after a repeated
amount. -/
theorem shortAfterRepeat_of_quoted (hq : q.Lawful false) (hpaid : q.Paid)
    (hpools : ∀ first ∈ path, (factory first).Sound q.tickMath) (hpos : ∀ a ∈ amountsOut, 0 < a)
    (hsorted : amountsOut.Pairwise (· ≤ ·))
    (h : List.Forall₂ (Quoted q factory path) (stalled amountsOut) amountsIn)
    (hquoted : List.Forall₂ (Quoted q factory path) amountsOut amountsIn) :
    ShortAfterRepeat q factory path amountsOut := by
  induction amountsOut generalizing amountsIn with
  | nil =>
    intro before b c after heq
    simp at heq
  | cons a rest ih =>
    cases rest with
    | nil =>
      intro before b c after heq
      have hlength := congrArg List.length heq
      simp only [List.length_append, List.length_cons, List.length_nil] at hlength
      omega
    | cons b rest =>
      obtain ⟨hle, hsorted'⟩ := List.pairwise_cons.mp hsorted
      by_cases hrepeated : b = a
      · -- every amount that follows is quoted as the repeated one
        subst hrepeated
        have hsame : ∀ c ∈ b :: b :: rest, b < c →
            Short q factory path b ∧ Short q factory path c := by
          intro c hc hlt
          have hstalled : stalled (b :: b :: rest) = (b :: b :: rest).map fun _ => b := if_pos rfl
          rw [hstalled, List.forall₂_map_left_iff] at h
          obtain ⟨r, hb, hquoted_c⟩ := exists_of_mem_forall₂ h hquoted hc
          exact hb.short hq hpaid hpools (hpos b List.mem_cons_self) hlt hquoted_c
        intro before c d after heq hd hlt
        have hc : c ∈ b :: b :: rest := by simp [heq]
        have hd : d ∈ b :: b :: rest := by simp [heq, hd]
        have hge : b ≤ c := by
          rcases List.mem_cons.mp hc with rfl | hc
          · exact le_rfl
          · exact hle c hc
        rcases hge.eq_or_lt with rfl | hbc
        · exact hsame d hd hlt
        · exact ⟨(hsame c hc hbc).2, (hsame d hd (hbc.trans hlt)).2⟩
      · rw [stalled_of_ne rest hrepeated] at h
        cases h with
        | cons hfirst h =>
          cases hquoted with
          | cons _ hquoted =>
            apply shortAfterRepeat_cons hrepeated
            exact ih (fun c hc => hpos c (List.mem_cons_of_mem _ hc)) hsorted' h hquoted

/-- The quotes of several amounts are those of the amounts one by one exactly if, where an amount is
repeated and a larger one follows, the path is short of both. -/
theorem quotesAgree_iff (hq : q.Lawful false) (hpaid : q.Paid)
    (hpools : ∀ first ∈ path, (factory first).Sound q.tickMath) (hpos : ∀ a ∈ amountsOut, 0 < a)
    (hfits : ∀ a ∈ amountsOut, a < 2 ^ 255)
    (hquote : quoteExactMultiOutput q factory path amountsOut = .ok amountsIn) :
    QuotesAgree q factory path amountsOut amountsIn ↔
      ShortAfterRepeat q factory path amountsOut := by
  obtain ⟨hne, hsorted, _, hpathQuote, _⟩ := quoteExactMultiOutput_eq_ok.mp hquote
  obtain ⟨hstandIns, hsuffix⟩ := quotes_of_standIns hq hpaid hpools hpos hfits hquote
  have hpath : path ≠ [] := by
    rintro rfl
    cases hpathQuote
  constructor
  · intro h
    apply shortAfterRepeat_of_quoted hq hpaid hpools hpos hsorted hstandIns
    have hsingles := List.forall₂_iff_zip.mp h.singles
    refine List.forall₂_iff_zip.mpr ⟨hsingles.1, fun {a r} hmem => ?_⟩
    have ha := (List.of_mem_zip hmem).1
    exact (quote_single_iff hq hpaid hpools hpath (hpos a ha) (hfits a ha)).mp (hsingles.2 hmem).1
  · intro h
    have hquoted := List.forall₂_iff_zip.mp (quoted_of_standIns hsorted h hstandIns)
    refine ⟨List.forall₂_iff_zip.mpr ⟨hquoted.1, fun {a r} hmem => ?_⟩, hsuffix⟩
    have ha := (List.of_mem_zip hmem).1
    have hr := hquoted.2 hmem
    exact ⟨(quote_single_iff hq hpaid hpools hpath (hpos a ha) (hfits a ha)).mpr hr,
      hr.eq_zero_iff hq hpaid hpools (hpos a ha)⟩

end Agree

end ZeroExApi.MultiQuoter
