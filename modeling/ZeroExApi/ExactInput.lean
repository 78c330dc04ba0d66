/-
# ZeroExApi.ExactInput — what a path gives for the amounts put in

`quoteExactMultiInput` hands what a pool gives for an amount on to the next pool.  What a path gives
for one amount is `Gives`.  Several amounts go wrong in two ways.  If the first amount at a pool is
zero, the pool is not walked at all, and every other amount is noted as if it was owed.  If an
amount at a pool is repeated, what follows is noted as if it was that amount.

The quotes are those of the amounts one by one exactly if, at each pool, neither matters
(`quoteInputPath_map`).
-/

import ZeroExApi.MultiSwap
import Mathlib.Algebra.Group.Even

namespace ZeroExApi.MultiQuoter

open ZeroExApi.Lib ZeroExApi.Lib.Fallible

/-! ## What stands for an amount -/

/-- The first repeated amount. -/
def firstRepeated : List ℕ → Option ℕ
  | a :: b :: rest => if b = a then some a else firstRepeated (b :: rest)
  | _ => none

/-- What stands for an amount: none that is larger than the first repeated one. -/
def standIn (amounts : List ℕ) (a : ℕ) : ℕ :=
  match firstRepeated amounts with
  | some d => min a d
  | none => a

theorem firstRepeated_of_ne {a b : ℕ} (rest : List ℕ) (h : b ≠ a) :
    firstRepeated (a :: b :: rest) = firstRepeated (b :: rest) := if_neg h

theorem le_firstRepeated {a d : ℕ} {rest : List ℕ} (hsorted : (a :: rest).Pairwise (· ≤ ·))
    (h : firstRepeated (a :: rest) = some d) : a ≤ d := by
  induction rest generalizing a with
  | nil => cases h
  | cons b rest ih =>
    obtain ⟨hle, hsorted'⟩ := List.pairwise_cons.mp hsorted
    by_cases hrepeated : b = a
    · have hd : firstRepeated (a :: b :: rest) = some a := if_pos hrepeated
      rw [hd] at h
      cases h
      exact le_rfl
    · rw [firstRepeated_of_ne rest hrepeated] at h
      exact (hle b List.mem_cons_self).trans (ih hsorted' h)

theorem stalled_eq_map {amounts : List ℕ} (hsorted : amounts.Pairwise (· ≤ ·)) :
    stalled amounts = amounts.map (standIn amounts) := by
  induction amounts with
  | nil => rfl
  | cons a rest ih =>
    cases rest with
    | nil => rfl
    | cons b rest =>
      obtain ⟨hle, hsorted'⟩ := List.pairwise_cons.mp hsorted
      by_cases hrepeated : b = a
      · subst hrepeated
        have hfirst : firstRepeated (b :: b :: rest) = some b := if_pos rfl
        have hstandIn : ∀ c ∈ b :: b :: rest, standIn (b :: b :: rest) c = b := by
          intro c hc
          unfold standIn
          rw [hfirst]
          rcases List.mem_cons.mp hc with rfl | hc
          · exact Nat.min_self c
          · exact Nat.min_eq_right (hle c hc)
        rw [List.map_congr_left hstandIn]
        exact if_pos rfl
      · have hfirst := firstRepeated_of_ne rest hrepeated
        have hsame : standIn (a :: b :: rest) = standIn (b :: rest) := by
          funext c
          unfold standIn
          rw [hfirst]
        have hself : standIn (b :: rest) a = a := by
          unfold standIn
          split
          · rename_i d hd
            have hb := le_firstRepeated hsorted' hd
            exact Nat.min_eq_left ((hle b List.mem_cons_self).trans hb)
          · rfl
        rw [stalled_of_ne rest hrepeated, ih hsorted', hsame]
        show _ = standIn (b :: rest) a :: (b :: rest).map (standIn (b :: rest))
        rw [hself]

theorem firstRepeated_split {amounts : List ℕ} {d : ℕ} (h : firstRepeated amounts = some d) :
    ∃ before after, amounts = before ++ d :: d :: after := by
  induction amounts with
  | nil => cases h
  | cons a rest ih =>
    cases rest with
    | nil => cases h
    | cons b rest =>
      by_cases hrepeated : b = a
      · subst hrepeated
        have hd : firstRepeated (b :: b :: rest) = some b := if_pos rfl
        rw [hd] at h
        cases h
        exact ⟨[], rest, rfl⟩
      · rw [firstRepeated_of_ne rest hrepeated] at h
        obtain ⟨before, after, heq⟩ := ih h
        exact ⟨a :: before, after, congrArg (a :: ·) heq⟩

/-- A repeated amount is the first one, or there is a smaller one. -/
theorem firstRepeated_le {before after : List ℕ} {a : ℕ}
    (hsorted : (before ++ a :: a :: after).Pairwise (· ≤ ·)) :
    ∃ d, firstRepeated (before ++ a :: a :: after) = some d ∧ d ≤ a := by
  induction before with
  | nil => exact ⟨a, if_pos rfl, le_rfl⟩
  | cons c before ih =>
    obtain ⟨hle, hsorted'⟩ := List.pairwise_cons.mp hsorted
    obtain ⟨d, hd, hda⟩ := ih hsorted'
    cases hrest : before ++ a :: a :: after with
    | nil => simp at hrest
    | cons b rest =>
      rw [hrest] at hd
      show ∃ d, firstRepeated (c :: (before ++ a :: a :: after)) = some d ∧ d ≤ a
      rw [hrest]
      by_cases hrepeated : b = c
      · exact ⟨c, if_pos hrepeated, hle a (by simp)⟩
      · rw [firstRepeated_of_ne rest hrepeated]
        exact ⟨d, hd, hda⟩

/-- An amount that does not stand for itself comes after a repeated one, which does. -/
theorem standIn_cases {amounts : List ℕ} (hsorted : amounts.Pairwise (· ≤ ·)) {a : ℕ}
    (ha : a ∈ amounts) : standIn amounts a = a ∨ ∃ before after,
      amounts = before ++ standIn amounts a :: standIn amounts a :: after ∧ a ∈ after ∧
        standIn amounts a < a := by
  cases hd : firstRepeated amounts with
  | none =>
    unfold standIn
    rw [hd]
    exact .inl rfl
  | some d =>
    have hstandIn : standIn amounts a = min a d := by
      unfold standIn
      rw [hd]
    rcases Nat.lt_or_ge d a with hlt | hge
    · have hmin : standIn amounts a = d := hstandIn.trans (Nat.min_eq_right hlt.le)
      obtain ⟨before, after, heq⟩ := firstRepeated_split hd
      rw [hmin]
      refine .inr ⟨before, after, heq, ?_, hlt⟩
      -- nothing before the repeated amount is larger
      rw [heq] at ha hsorted
      have hbefore := (List.pairwise_append.mp hsorted).2.2
      rcases List.mem_append.mp ha with hmem | hmem
      · have hle := hbefore a hmem d List.mem_cons_self
        omega
      · rcases List.mem_cons.mp hmem with rfl | hmem
        · omega
        · rcases List.mem_cons.mp hmem with rfl | hmem
          · omega
          · exact hmem
    · exact .inl (hstandIn.trans (Nat.min_eq_left hge))

/-- A repeated amount stands for every larger one as it does for itself. -/
theorem standIn_eq {before after : List ℕ} {a b : ℕ}
    (hsorted : (before ++ a :: a :: after).Pairwise (· ≤ ·)) (hlt : a < b) :
    standIn (before ++ a :: a :: after) b = standIn (before ++ a :: a :: after) a := by
  obtain ⟨d, hd, hle⟩ := firstRepeated_le hsorted
  unfold standIn
  rw [hd]
  dsimp only
  omega

/-! ## Pools and paths -/

section Pools

variable (q : Quoter) (factory : Factory)

/-- The swap by which a pool takes the input of a path. -/
def inputSwap (first : PathPool) : Swap :=
  (factory first).swap q.tickMath (decide (first.tokenA < first.tokenB)) true

/-- What a pool gives for an amount, all of it or as much as the pool takes. -/
def PoolGives (first : PathPool) (amount given : ℕ) : Prop :=
  ∃ t left, (walk q (inputSwap q factory first)).Drains (factory first).start amount t left ∧
    t.amountCalculated = -(given : ℤ)

/-- What a path gives for an amount: each pool takes what the pool before it gives. -/
def Gives : List PathPool → ℕ → ℕ → Prop
  | [], amount, given => given = amount
  | first :: path, amount, given =>
    ∃ x, PoolGives q factory first amount x ∧ Gives path x given

/-- Where an amount is repeated, the path gives the same for it and for what is larger. -/
def SameAfterRepeat (path : List PathPool) (amounts : List ℕ) : Prop :=
  ∀ before a b after, amounts = before ++ a :: a :: after → b ∈ after → a < b →
    ∃ given, Gives q factory path a given ∧ Gives q factory path b given

/-- At each pool nothing goes wrong with the amounts that reach it.  If the first one is zero,
either the others are, or an even number of pools gives them for themselves.  Otherwise it does not
matter what stands for a larger amount after a repeated one. -/
def Harmless : List PathPool → List ℕ → Prop
  | [], _ => True
  | first :: path, amounts =>
    if amounts.head? = some 0 then
      ∀ a ∈ amounts, a ≠ 0 → Even (path.length + 1) ∧ Gives q factory (first :: path) a a
    else
      SameAfterRepeat q factory (first :: path) amounts ∧
        ∀ given, List.Forall₂ (PoolGives q factory first) (stalled amounts) given →
          Harmless path given

/-- A pool gives what a word of a signed amount can hold. -/
def GivesWords (first : PathPool) : Prop :=
  ∀ amount given, PoolGives q factory first amount given → given < 2 ^ 255

end Pools

section Pool

variable {q : Quoter} {factory : Factory} {first : PathPool} {a b x y : ℕ}

/-- A pool gives one amount for an amount. -/
theorem PoolGives.unique (h : PoolGives q factory first a x) (h' : PoolGives q factory first a y) :
    x = y := by
  obtain ⟨t, left, ht, hx⟩ := h
  obtain ⟨u, left', hu, hy⟩ := h'
  obtain ⟨rfl, _⟩ := ht.unique hu
  omega

theorem poolGives_zero : PoolGives q factory first 0 0 :=
  ⟨(factory first).start, 0, .stop (.inl rfl), rfl⟩

/-- A turn gives something or nothing. -/
theorem move_given {s s' : WalkState} {amount used : ℕ}
    (hmove : (walk q (inputSwap q factory first)).move s amount = .ok (s', used)) :
    -s.amountCalculated ≤ -s'.amountCalculated := by
  obtain ⟨hcalculated, _⟩ := move_eq_ok.mp hmove
  have hsum := (checkedInt256_eq_ok.mp hcalculated).2
  change s.amountCalculated + -((stepOf q (inputSwap q factory first) s
    (specified true amount)).made true : ℤ) = s'.amountCalculated at hsum
  omega

variable (hq : q.Lawful true) (hpool : (factory first).Sound q.tickMath)
include hq hpool

theorem inputWalk_exact : (walk q (inputSwap q factory first)).Exact
    (InRange q (inputSwap q factory first)) :=
  walk_exact hq (hpool.swap_lawful _ true)

/-- What a pool gives is noted as a signed word. -/
theorem given_mem {t : WalkState} {left : ℕ}
    (h : (walk q (inputSwap q factory first)).Drains (factory first).start a t left) :
    0 ≤ -t.amountCalculated ∧ -t.amountCalculated ≤ 2 ^ 255 := by
  have hwalk := inputWalk_exact hq hpool
  have hstart := hpool.start_inRange (decide (first.tokenA < first.tokenB)) true
  have hle := h.mono (f := fun s => -s.amountCalculated) hwalk hstart
    fun _ _ hmove => move_given hmove
  have hfits := (h.good hwalk hstart).fits.1
  have hzero : (factory first).start.amountCalculated = 0 := rfl
  constructor <;> omega

/-- A pool does not give less for more. -/
theorem PoolGives.mono (hle : a ≤ b) (h : PoolGives q factory first a x)
    (h' : PoolGives q factory first b y) : x ≤ y := by
  obtain ⟨t, left, ht, hx⟩ := h
  obtain ⟨u, left', hu, hy⟩ := h'
  have hwalk := inputWalk_exact hq hpool
  have hstart := hpool.start_inRange (decide (first.tokenA < first.tokenB)) true
  have hsum : b = a + (b - a) := by omega
  rw [hsum] at hu
  rcases Nat.eq_zero_or_pos left with rfl | hleft
  · -- the larger amount goes on from where the smaller one has led
    rw [ht.add_iff hwalk hstart] at hu
    have hmore := hu.mono (f := fun s => -s.amountCalculated) hwalk (ht.good hwalk hstart)
      fun _ _ hmove => move_given hmove
    omega
  · -- the walk has ended
    obtain ⟨rfl, _⟩ := (ht.short hwalk hstart hleft (b - a)).unique hu
    omega

end Pool

/-! ## One pool of a path -/

/-- The swap over a pool of a path. -/
def inputResults (q : Quoter) (factory : Factory) (first : PathPool) (amounts : List ℕ) :
    Except Revert (List (ℤ × ℤ)) :=
  multiswap q (factory first) (decide (first.tokenA < first.tokenB))
    (amounts.map fun a : ℕ => int256 a)
    (priceLimit q.tickMath (decide (first.tokenA < first.tokenB)))

/-- What the results give for the next pool. -/
def givenAmounts (first : PathPool) (results : List (ℤ × ℤ)) : List ℕ :=
  results.map fun r => uint256 (-if decide (first.tokenA < first.tokenB) then r.2 else r.1)

section Hop

variable {q : Quoter} {factory : Factory} {first : PathPool} {amounts : List ℕ}

/-- With nothing at the head, the pool is not walked, and the rest is noted as if it was owed. -/
theorem inputResults_zero (hhead : amounts.head? = some 0) :
    ∃ results, inputResults q factory first amounts = .ok results ∧
      givenAmounts first results = amounts.map negWord := by
  cases amounts with
  | nil => cases hhead
  | cons a rest =>
    cases hhead
    have hzero : int256 (0 : ℕ) = 0 := by decide
    let swap : Swap := ⟨factory first, decide (first.tokenA < first.tokenB), false,
      priceLimit q.tickMath (decide (first.tokenA < first.tokenB))⟩
    have hloop : inputResults q factory first (0 :: rest) =
        .ok (((0 :: rest).map fun a : ℕ => int256 a).map fun a =>
          deltas swap (int256 (a - 0)) 0) := by
      unfold inputResults
      rw [List.map_cons, hzero]
      exact multiswapLoop_zero _ _ _ _
    refine ⟨_, hloop, ?_⟩
    unfold givenAmounts
    rw [List.map_map, List.map_map]
    apply List.map_congr_left
    intro a _
    have hreceived := deltas_received swap (int256 (int256 a - 0)) 0
    have hspecified : (if swap.exactInput then 0 else int256 (int256 a - 0)) = int256 a := by
      rw [if_neg (show ¬ swap.exactInput = true from Bool.false_ne_true), sub_zero, int256_int256]
    exact congrArg (fun x => uint256 (-x)) (hreceived.trans hspecified)

variable (hq : q.Lawful true) (hpool : (factory first).Sound q.tickMath)
include hq hpool

/-- Otherwise the pool is walked for the stand-ins. -/
theorem inputResults_outcome (hne : amounts ≠ []) (hpos : ∀ a ∈ amounts, 0 < a)
    (hsorted : amounts.Pairwise (· ≤ ·)) (hfits : ∀ a ∈ amounts, a < 2 ^ 255) :
    Outcome q (inputSwap q factory first) (factory first).start amounts
      (inputResults q factory first amounts) := by
  have hwords : (amounts.map fun a : ℕ => int256 a) = amounts.map (specified true) := by
    apply List.map_congr_left
    intro a ha
    have hlt := hfits a ha
    exact int256_of_fits ⟨by omega, by omega⟩
  unfold inputResults
  rw [hwords]
  exact multiswap_outcome hq hpool _ hne hpos hsorted hfits

theorem givenAmounts_gives {bs : List ℕ} {results : List (ℤ × ℤ)}
    (hlength : bs.length = amounts.length)
    (h : List.Forall₂ (Noted q (inputSwap q factory first) (factory first).start)
      (amounts.zip bs) results) :
    List.Forall₂ (PoolGives q factory first) bs (givenAmounts first results) := by
  induction amounts generalizing bs results with
  | nil =>
    cases List.eq_nil_of_length_eq_zero hlength
    cases h
    exact .nil
  | cons a amounts ih =>
    cases bs with
    | nil => cases hlength
    | cons b bs =>
      cases h with
      | @cons _ r _ results hnoted hrest =>
        refine .cons ?_ (ih (Nat.succ.inj hlength) hrest)
        obtain ⟨t, left, missing, ht, _, _, hr⟩ := hnoted
        obtain ⟨hnonneg, hle⟩ := given_mem hq hpool ht
        have hcalculated : (if decide (first.tokenA < first.tokenB) then r.2 else r.1) =
            t.amountCalculated := by
          rw [hr]
          exact deltas_received (inputSwap q factory first) _ _
        refine ⟨t, left, ht, ?_⟩
        show t.amountCalculated =
          -((uint256 (-if decide (first.tokenA < first.tokenB) then r.2 else r.1) : ℕ) : ℤ)
        rw [hcalculated, uint256_of_nonneg hnonneg (by omega), neg_neg]

/-- Where the pool gives something for each stand-in, there are results. -/
theorem inputResults_ok (hne : amounts ≠ []) (hpos : ∀ a ∈ amounts, 0 < a)
    (hsorted : amounts.Pairwise (· ≤ ·)) (hfits : ∀ a ∈ amounts, a < 2 ^ 255)
    (h : ∀ b ∈ stalled amounts, ∃ x, PoolGives q factory first b x) :
    ∃ results, inputResults q factory first amounts = .ok results ∧
      List.Forall₂ (PoolGives q factory first) (stalled amounts) (givenAmounts first results) := by
  have houtcome := inputResults_outcome hq hpool hne hpos hsorted hfits
  cases hresults : inputResults q factory first amounts with
  | error e =>
    rw [hresults] at houtcome
    obtain ⟨b, hb, hnowhere⟩ := houtcome
    obtain ⟨x, t, left, ht, _⟩ := h b hb
    exact absurd ht (hnowhere t left)
  | ok results =>
    rw [hresults] at houtcome
    exact ⟨results, rfl, givenAmounts_gives hq hpool (length_stalled amounts) houtcome⟩

end Hop

/-! ## Paths -/

theorem exists_map_of_forall₂ {R : ℕ → ℕ → Prop} {as bs : List ℕ}
    (hunique : ∀ {a b c}, R a b → R a c → b = c) (h : List.Forall₂ R as bs) :
    ∃ f : ℕ → ℕ, bs = as.map f ∧ ∀ a ∈ as, R a (f a) := by
  classical
  let f : ℕ → ℕ := fun a => if h : ∃ b, R a b then h.choose else 0
  have hf : ∀ {a b}, R a b → f a = b := by
    intro a b hab
    have hex : ∃ b, R a b := ⟨b, hab⟩
    have hchoose : f a = hex.choose := dif_pos hex
    rw [hchoose]
    exact hunique hex.choose_spec hab
  refine ⟨f, ?_, ?_⟩
  · induction h with
    | nil => rfl
    | cons hab _ ih => rw [List.map_cons, hf hab, ← ih]
  · intro a ha
    induction h with
    | nil => cases ha
    | cons hab _ ih =>
      rcases List.mem_cons.mp ha with rfl | ha
      · rw [hf hab]
        exact hab
      · exact ih ha

theorem standIn_standIn (amounts : List ℕ) (a : ℕ) :
    standIn amounts (standIn amounts a) = standIn amounts a := by
  unfold standIn
  cases firstRepeated amounts with
  | none => rfl
  | some d =>
    dsimp only
    omega

section Path

variable {q : Quoter} {factory : Factory} {path : List PathPool} {a x y : ℕ}

theorem quoteInputPath_cons (first : PathPool) (amounts : List ℕ) :
    quoteInputPath q factory (first :: path) amounts =
      (inputResults q factory first amounts >>= fun results =>
        if path.isEmpty then .ok (givenAmounts first results)
        else quoteInputPath q factory path (givenAmounts first results)) := rfl

theorem Gives.unique (h : Gives q factory path a x) (h' : Gives q factory path a y) : x = y := by
  induction path generalizing a with
  | nil =>
    cases h
    cases h'
    rfl
  | cons first path ih =>
    obtain ⟨z, hz, h⟩ := h
    obtain ⟨w, hw, h'⟩ := h'
    cases hz.unique hw
    exact ih h h'

theorem gives_zero : Gives q factory path 0 0 := by
  induction path with
  | nil => rfl
  | cons first path ih => exact ⟨0, poolGives_zero, ih⟩

theorem Gives.lt (hwords : ∀ first ∈ path, GivesWords q factory first) (ha : a < 2 ^ 255)
    (h : Gives q factory path a x) : x < 2 ^ 255 := by
  induction path generalizing a with
  | nil =>
    cases h
    exact ha
  | cons first path ih =>
    obtain ⟨z, hz, h⟩ := h
    exact ih (fun p hp => hwords p (List.mem_cons_of_mem _ hp))
      (hwords first List.mem_cons_self a z hz) h

/-- With nothing at the head, every pool negates the amounts. -/
theorem quoteInputPath_zero {amounts : List ℕ} (hpath : path ≠ []) (hhead : amounts.head? = some 0)
    (hwords : ∀ a ∈ amounts, a < 2 ^ 256) :
    quoteInputPath q factory path amounts =
      .ok (if Even path.length then amounts else amounts.map negWord) := by
  induction path generalizing amounts with
  | nil => exact absurd rfl hpath
  | cons first path ih =>
    obtain ⟨results, hresults, hgiven⟩ := inputResults_zero hhead
    rw [quoteInputPath_cons, hresults]
    show (if path.isEmpty then Except.ok (givenAmounts first results)
      else quoteInputPath q factory path (givenAmounts first results)) = _
    rw [hgiven, List.length_cons]
    cases path with
    | nil => rfl
    | cons second path =>
      have hhead' : (amounts.map negWord).head? = some 0 := by
        rw [List.head?_map, hhead]
        rfl
      have hwords' : ∀ a ∈ amounts.map negWord, a < 2 ^ 256 := by
        intro a ha
        obtain ⟨b, _, rfl⟩ := List.mem_map.mp ha
        exact negWord_lt b
      show quoteInputPath q factory (second :: path) (amounts.map negWord) = _
      rw [ih (List.cons_ne_nil _ _) hhead' hwords']
      congr 1
      by_cases heven : Even (second :: path).length
      · rw [if_pos heven, if_neg (by rw [Nat.even_add_one]; exact not_not.mpr heven)]
      · rw [if_neg heven, if_pos (Nat.even_add_one.mpr heven), List.map_map]
        have hself : ∀ a ∈ amounts, (negWord ∘ negWord) a = id a := by
          intro a ha
          rw [Function.comp_apply, negWord_negWord (hwords a ha), id_eq]
        rw [List.map_congr_left hself, List.map_id]

theorem head_pos {amounts : List ℕ} (hsorted : amounts.Pairwise (· ≤ ·))
    (hhead : amounts.head? ≠ some 0) : ∀ a ∈ amounts, 0 < a := by
  cases amounts with
  | nil =>
    intro a ha
    cases ha
  | cons b rest =>
    have hb : 0 < b := Nat.pos_of_ne_zero fun hzero => hhead (congrArg some hzero)
    intro a ha
    rcases List.mem_cons.mp ha with rfl | ha
    · exact hb
    · exact lt_of_lt_of_le hb ((List.pairwise_cons.mp hsorted).1 a ha)

/-- With nothing at the head, the negated amounts are what the path gives only where there are none,
or an even number of pools gives them for themselves. -/
theorem harmless_zero_iff {first : PathPool} {amounts : List ℕ}
    (hwords : ∀ p ∈ first :: path, GivesWords q factory p) (hhead : amounts.head? = some 0)
    (hfits : ∀ a ∈ amounts, a < 2 ^ 255) :
    ∃ f : ℕ → ℕ, (if Even (first :: path).length then amounts else amounts.map negWord) =
        amounts.map f ∧
      ((∀ a ∈ amounts, Gives q factory (first :: path) a (f a)) ↔
        Harmless q factory (first :: path) amounts) := by
  unfold Harmless
  rw [if_pos hhead, List.length_cons]
  by_cases heven : Even (path.length + 1)
  · rw [if_pos heven]
    refine ⟨id, (List.map_id _).symm, fun h a ha _ => ⟨heven, h a ha⟩, fun h a ha => ?_⟩
    rcases Nat.eq_zero_or_pos a with rfl | hpos
    · exact gives_zero
    · exact (h a ha hpos.ne').2
  · rw [if_neg heven]
    refine ⟨negWord, rfl, fun h a ha hne => ?_, fun h a ha => ?_⟩
    · -- no path gives that much
      have ha_lt := hfits a ha
      have hlt := (h a ha).lt hwords ha_lt
      rw [negWord_of_pos (Nat.pos_of_ne_zero hne) (by omega)] at hlt
      omega
    · rcases Nat.eq_zero_or_pos a with rfl | hpos
      · rw [negWord_zero]
        exact gives_zero
      · exact absurd (h a ha hpos.ne').1 heven

/-- The quotes over a pool and the rest of a path are what the path gives exactly if it does not
matter what stands for an amount, and nothing goes wrong with what the pool gives. -/
theorem harmless_cons_iff {first : PathPool} {amounts given : List ℕ} {f g : ℕ → ℕ}
    (hsorted : amounts.Pairwise (· ≤ ·)) (hhead : amounts.head? ≠ some 0)
    (hmap : given = (stalled amounts).map g)
    (hg : ∀ b ∈ stalled amounts, PoolGives q factory first b (g b))
    (hiff : (∀ x ∈ given, Gives q factory path x (f x)) ↔ Harmless q factory path given) :
    (∀ a ∈ amounts, Gives q factory (first :: path) a (f (g (standIn amounts a)))) ↔
      Harmless q factory (first :: path) amounts := by
  have hgives : List.Forall₂ (PoolGives q factory first) (stalled amounts) given := by
    rw [hmap, List.forall₂_map_right_iff, List.forall₂_same]
    exact hg
  unfold Harmless
  rw [if_neg hhead]
  constructor
  · intro h
    constructor
    · -- a larger amount is quoted as the repeated one
      rintro before a b after rfl hb hlt
      have ha := h a (by simp)
      have hb := h b (by simp [hb])
      rw [standIn_eq hsorted hlt] at hb
      exact ⟨_, ha, hb⟩
    · intro given' hgives'
      have hsame : given' = given := by
        obtain ⟨g', hmap', hg'⟩ := exists_map_of_forall₂ (fun h h' => h.unique h') hgives'
        rw [hmap', hmap]
        exact List.map_congr_left fun b hb => (hg' b hb).unique (hg b hb)
      rw [hsame]
      apply hiff.mp
      intro x hx
      rw [hmap] at hx
      obtain ⟨b, hb, rfl⟩ := List.mem_map.mp hx
      have hself : standIn amounts b = b := by
        rw [stalled_eq_map hsorted] at hb
        obtain ⟨a, _, rfl⟩ := List.mem_map.mp hb
        exact standIn_standIn amounts a
      obtain ⟨z, hz, hrest⟩ := h b (mem_of_mem_stalled hb)
      rw [hself] at hrest
      cases hz.unique (hg b hb)
      exact hrest
  · rintro ⟨hsame, hrest⟩ a ha
    have hstand : standIn amounts a ∈ stalled amounts := by
      rw [stalled_eq_map hsorted]
      exact List.mem_map_of_mem ha
    have hgiven : g (standIn amounts a) ∈ given := by
      rw [hmap]
      exact List.mem_map_of_mem hstand
    have hstandIn : Gives q factory (first :: path) (standIn amounts a)
        (f (g (standIn amounts a))) :=
      ⟨_, hg _ hstand, hiff.mpr (hrest given hgives) _ hgiven⟩
    rcases standIn_cases hsorted ha with hself | ⟨before, after, heq, hafter, hlt⟩
    · rw [hself] at hstandIn ⊢
      exact hstandIn
    · obtain ⟨v, hv, hav⟩ := hsame before _ a after heq hafter hlt
      cases hstandIn.unique hv
      exact hav

variable (hq : q.Lawful true) (hpools : ∀ first ∈ path, (factory first).Sound q.tickMath)
  (hwords : ∀ first ∈ path, GivesWords q factory first)
include hq hpools hwords

/-- What is quoted for an amount depends on nothing but the amount, and it is what the path gives
for it exactly if nothing goes wrong with the amounts. -/
theorem quoteInputPath_map {amounts amountsOut : List ℕ} (hne : amounts ≠ [])
    (hsorted : amounts.Pairwise (· ≤ ·)) (hfits : ∀ a ∈ amounts, a < 2 ^ 255)
    (hquote : quoteInputPath q factory path amounts = .ok amountsOut) :
    ∃ f : ℕ → ℕ, amountsOut = amounts.map f ∧
      ((∀ a ∈ amounts, Gives q factory path a (f a)) ↔ Harmless q factory path amounts) := by
  induction path generalizing amounts with
  | nil => cases hquote
  | cons first path ih =>
    by_cases hhead : amounts.head? = some 0
    · rw [quoteInputPath_zero (List.cons_ne_nil _ _) hhead fun a ha =>
        lt_trans (hfits a ha) (by omega)] at hquote
      cases hquote
      exact harmless_zero_iff hwords hhead hfits
    · have hpool := hpools first List.mem_cons_self
      have hpos := head_pos hsorted hhead
      rw [quoteInputPath_cons] at hquote
      obtain ⟨results, hresults, hquote⟩ := bind_eq_ok.mp hquote
      have houtcome := inputResults_outcome hq hpool hne hpos hsorted hfits
      rw [hresults] at houtcome
      have hgives := givenAmounts_gives hq hpool (length_stalled amounts) houtcome
      obtain ⟨g, hmap, hg⟩ := exists_map_of_forall₂ (fun h h' => h.unique h') hgives
      -- what the first pool gives for the stand-ins is quoted along the rest of the path
      generalize givenAmounts first results = given at hquote hgives hmap
      have hstandIns := sorted_stalled hsorted
      obtain ⟨f, hf, hiff⟩ : ∃ f : ℕ → ℕ, amountsOut = given.map f ∧
          ((∀ x ∈ given, Gives q factory path x (f x)) ↔ Harmless q factory path given) := by
        cases path with
        | nil =>
          cases hquote
          exact ⟨id, (List.map_id _).symm, fun _ => trivial, fun _ _ _ => rfl⟩
        | cons second path =>
          have hsorted' : given.Pairwise (· ≤ ·) := by
            rw [hmap, List.pairwise_map]
            refine hstandIns.imp_of_mem fun hb hc hle => ?_
            exact (hg _ hb).mono hq hpool hle (hg _ hc)
          have hfits' : ∀ x ∈ given, x < 2 ^ 255 := by
            intro x hx
            rw [hmap] at hx
            obtain ⟨b, hb, rfl⟩ := List.mem_map.mp hx
            exact hwords first List.mem_cons_self b _ (hg b hb)
          have hne' : given ≠ [] := by
            rintro rfl
            have hlength := hgives.length_eq
            rw [length_stalled] at hlength
            exact hne (List.eq_nil_of_length_eq_zero hlength)
          exact ih (fun p hp => hpools p (List.mem_cons_of_mem _ hp))
            (fun p hp => hwords p (List.mem_cons_of_mem _ hp)) hne' hsorted' hfits' hquote
      refine ⟨fun a => f (g (standIn amounts a)), ?_, ?_⟩
      · rw [hf, hmap, stalled_eq_map hsorted, List.map_map, List.map_map]
        rfl
      · exact harmless_cons_iff hsorted hhead hmap hg hiff

omit hq hpools hwords in
/-- Nothing goes wrong with one amount. -/
theorem harmless_singleton (q : Quoter) (factory : Factory) (path : List PathPool) (a : ℕ) :
    Harmless q factory path [a] := by
  induction path generalizing a with
  | nil => trivial
  | cons first path ih =>
    unfold Harmless
    split
    · rename_i hhead
      cases hhead
      intro b hb hne
      exact absurd (List.mem_singleton.mp hb) hne
    · constructor
      · intro before b c after heq
        have hlength := congrArg List.length heq
        simp only [List.length_append, List.length_cons, List.length_nil] at hlength
        omega
      · intro given hgiven
        cases hgiven with
        | cons _ hnil =>
          cases hnil
          exact ih _

/-- Where the path gives something for an amount, it is quoted. -/
theorem quoteInputPath_ok (hpath : path ≠ []) (ha : a < 2 ^ 255) (h : Gives q factory path a x) :
    ∃ amountsOut, quoteInputPath q factory path [a] = .ok amountsOut := by
  induction path generalizing a with
  | nil => exact absurd rfl hpath
  | cons first path ih =>
    rcases Nat.eq_zero_or_pos a with rfl | hpos
    · have hzero : ∀ b ∈ [0], b < 2 ^ 256 := fun b hb =>
        lt_of_le_of_lt (List.mem_singleton.mp hb).le (Nat.two_pow_pos 256)
      rw [quoteInputPath_zero hpath List.head?_cons hzero]
      exact ⟨_, rfl⟩
    · have hpool := hpools first List.mem_cons_self
      obtain ⟨z, hz, hrest⟩ := h
      have honly : ∀ b ∈ [a], 0 < b ∧ b < 2 ^ 255 := by
        intro b hb
        cases List.mem_singleton.mp hb
        exact ⟨hpos, ha⟩
      obtain ⟨results, hresults, hgives⟩ := inputResults_ok hq hpool (List.cons_ne_nil a [])
        (fun b hb => (honly b hb).1) (List.pairwise_singleton _ _) (fun b hb => (honly b hb).2)
        (fun b hb => ⟨z, List.mem_singleton.mp hb ▸ hz⟩)
      have hgiven : givenAmounts first results = [z] := by
        generalize givenAmounts first results = given at hgives
        cases hgives with
        | cons hz' hnil =>
          cases hnil
          rw [hz'.unique hz]
      rw [quoteInputPath_cons, hresults]
      show ∃ amountsOut, (if path.isEmpty then Except.ok (givenAmounts first results)
        else quoteInputPath q factory path (givenAmounts first results)) = Except.ok amountsOut
      rw [hgiven]
      cases path with
      | nil => exact ⟨[z], rfl⟩
      | cons second path =>
        exact ih (fun p hp => hpools p (List.mem_cons_of_mem _ hp))
          (fun p hp => hwords p (List.mem_cons_of_mem _ hp)) (List.cons_ne_nil _ _)
          (hwords first List.mem_cons_self a z hz) hrest

end Path

/-! ## Several amounts and one by one -/

/-- The quotes of several amounts are those of the amounts one by one. -/
def InputQuotesAgree (q : Quoter) (factory : Factory) (path : List PathPool)
    (amountsIn amountsOut : List ℕ) : Prop :=
  List.Forall₂ (fun amountIn amountOut =>
    quoteExactMultiInput q factory path [amountIn] = .ok [amountOut]) amountsIn amountsOut

section Agree

variable {q : Quoter} {factory : Factory} {path : List PathPool} {a x : ℕ}
  {amountsIn amountsOut : List ℕ}

/-- What a quote of several amounts goes through. -/
theorem quoteExactMultiInput_eq_ok :
    quoteExactMultiInput q factory path amountsIn = .ok amountsOut ↔
      amountsIn ≠ [] ∧ amountsIn.Pairwise (· ≤ ·) ∧
        quoteInputPath q factory path amountsIn = .ok amountsOut := by
  unfold quoteExactMultiInput
  rw [← monotone_iff]
  constructor
  · intro h
    split at h
    · cases h
    · rename_i hne
      split at h
      · cases h
      · rename_i hmonotone
        exact ⟨fun hnil => hne (List.isEmpty_iff.mpr hnil), by simpa using hmonotone, h⟩
  · rintro ⟨hne, hmonotone, h⟩
    rw [if_neg (by simpa using hne), if_neg (by simp [hmonotone])]
    exact h

variable (hq : q.Lawful true) (hpools : ∀ first ∈ path, (factory first).Sound q.tickMath)
  (hwords : ∀ first ∈ path, GivesWords q factory first)
include hq hpools hwords

/-- The quote of one amount is what the path gives. -/
theorem quote_input_single_iff (hpath : path ≠ []) (ha : a < 2 ^ 255) :
    quoteExactMultiInput q factory path [a] = .ok [x] ↔ Gives q factory path a x := by
  have hfits : ∀ b ∈ [a], b < 2 ^ 255 := fun b hb => List.mem_singleton.mp hb ▸ ha
  have honly : ∀ {amountsOut}, quoteInputPath q factory path [a] = .ok amountsOut →
      ∃ y, amountsOut = [y] ∧ Gives q factory path a y := by
    intro amountsOut hquote
    obtain ⟨f, rfl, hiff⟩ := quoteInputPath_map hq hpools hwords (List.cons_ne_nil a [])
      (List.pairwise_singleton _ _) hfits hquote
    exact ⟨f a, rfl, hiff.mpr (harmless_singleton q factory path a) a List.mem_cons_self⟩
  rw [quoteExactMultiInput_eq_ok]
  constructor
  · rintro ⟨_, _, hquote⟩
    obtain ⟨y, heq, hgives⟩ := honly hquote
    cases heq
    exact hgives
  · intro h
    obtain ⟨amountsOut, hquote⟩ := quoteInputPath_ok hq hpools hwords hpath ha h
    obtain ⟨y, rfl, hgives⟩ := honly hquote
    rw [hgives.unique h] at hquote
    exact ⟨List.cons_ne_nil a [], List.pairwise_singleton _ _, hquote⟩

/-- The quotes of several amounts are those of the amounts one by one exactly if, at each pool,
nothing goes wrong with the amounts that reach it. -/
theorem inputQuotesAgree_iff (hfits : ∀ a ∈ amountsIn, a < 2 ^ 255)
    (hquote : quoteExactMultiInput q factory path amountsIn = .ok amountsOut) :
    InputQuotesAgree q factory path amountsIn amountsOut ↔ Harmless q factory path amountsIn := by
  obtain ⟨hne, hsorted, hpathQuote⟩ := quoteExactMultiInput_eq_ok.mp hquote
  have hpath : path ≠ [] := by
    rintro rfl
    cases hpathQuote
  obtain ⟨f, rfl, hiff⟩ := quoteInputPath_map hq hpools hwords hne hsorted hfits hpathQuote
  unfold InputQuotesAgree
  rw [← hiff, List.forall₂_map_right_iff, List.forall₂_same]
  exact forall₂_congr fun a ha => quote_input_single_iff hq hpools hwords hpath (hfits a ha)

end Agree

end ZeroExApi.MultiQuoter
