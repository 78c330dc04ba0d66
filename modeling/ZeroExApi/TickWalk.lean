/-
# ZeroExApi.TickWalk — the tick searches agree and skip nothing

The next tick is the nearest initialized one of the word that is searched, or the end of that word
(`nearestLeft`, `nearestRight`).  On machine integers the end of a word may be wrapped around; it is
not where the spacing is at most `2 ^ 15` (`NearestLeft.int24_eq`, `NearestRight.int24_eq`).  There
the walk of `multiswap` from tick to tick passes over no initialized tick (`tickSearches_spec`).
-/

import ZeroExApi.StraightCurve
import ZeroExApi.TickSearch
import ZeroExApi.Lib.Sweep

namespace ZeroExApi.TickWalk

open ZeroExApi.MultiQuoter ZeroExApi.TickBitmap ZeroExApi.TickSearch ZeroExApi.Lib

/-! ## The nearest initialized tick -/

/-- A tick whose bit is set. -/
def Initialized (pool : Pool) (tick : ℤ) : Prop :=
  pool.tickSpacing ∣ tick ∧
    (pool.tickBitmap (tick / pool.tickSpacing / 256)).toNat.testBit
      (tick / pool.tickSpacing % 256).toNat = true

/-- The first tick of the word that is searched to the left of a tick. -/
def firstOfWord (pool : Pool) (tick : ℤ) : ℤ :=
  256 * (tick / pool.tickSpacing / 256) * pool.tickSpacing

/-- The last tick of the word that is searched to the right of a tick. -/
def lastOfWord (pool : Pool) (tick : ℤ) : ℤ :=
  (256 * ((tick / pool.tickSpacing + 1) / 256) + 255) * pool.tickSpacing

/-- The nearest initialized tick of the word at or to the left of a tick, or the word's first. -/
structure NearestLeft (pool : Pool) (tick : ℤ) (next : ℤ × Bool) : Prop where
  next_le : next.1 ≤ tick
  first_le : firstOfWord pool tick ≤ next.1
  none_between : ∀ other, Initialized pool other → next.1 < other → tick < other
  initialized_iff : next.2 = true ↔ Initialized pool next.1
  eq_first : next.2 = false → next.1 = firstOfWord pool tick

/-- The nearest initialized tick of the word to the right of a tick, or the word's last. -/
structure NearestRight (pool : Pool) (tick : ℤ) (next : ℤ × Bool) : Prop where
  lt_next : tick < next.1
  le_last : next.1 ≤ lastOfWord pool tick
  none_between : ∀ other, Initialized pool other → tick < other → next.1 ≤ other
  initialized_iff : next.2 = true ↔ Initialized pool next.1
  eq_last : next.2 = false → next.1 = lastOfWord pool tick

/-! ### The bits of a word -/

theorem testBit_from (x bit i : ℕ) :
    (2 ^ bit * (x / 2 ^ bit)).testBit i = (decide (bit ≤ i) && x.testBit i) := by
  rw [Nat.testBit_two_pow_mul, Nat.testBit_div_two_pow]
  by_cases h : bit ≤ i
  · rw [Nat.sub_add_cancel h]
  · rw [decide_eq_false h, Bool.false_and, Bool.false_and]

section Bits

variable {bitMath : BitMath} (hmath : bitMath.Lawful) {x bit : ℕ}

theorem unset_upTo (hx : x % 2 ^ (bit + 1) = 0) {i : ℕ} (hi : i ≤ bit) : x.testBit i ≠ true := by
  intro htest
  have hzero := congrArg (fun x => Nat.testBit x i) hx
  simp [Nat.testBit_mod_two_pow, htest, Nat.lt_succ_of_le hi] at hzero

theorem unset_from (hx : 2 ^ bit * (x / 2 ^ bit) = 0) {i : ℕ} (hi : bit ≤ i) :
    x.testBit i ≠ true := by
  intro htest
  have hzero := congrArg (fun x => Nat.testBit x i) hx
  simp [testBit_from, htest, hi] at hzero

include hmath

/-- The last set bit up to a bit. -/
theorem most_spec (hx : x % 2 ^ (bit + 1) ≠ 0) :
    x.testBit (bitMath.mostSignificantBit (x % 2 ^ (bit + 1))) = true ∧
      ∀ i ≤ bit, x.testBit i = true → i ≤ bitMath.mostSignificantBit (x % 2 ^ (bit + 1)) := by
  obtain ⟨hpow, hlt⟩ := hmath.most _ (Nat.pos_of_ne_zero hx)
  have hset := Nat.testBit_of_two_pow_le_and_two_pow_add_one_gt hpow hlt
  generalize bitMath.mostSignificantBit _ = m at *
  constructor
  · rw [Nat.testBit_mod_two_pow, Bool.and_eq_true] at hset
    exact hset.2
  · intro i hi htest
    have hmasked : (x % 2 ^ (bit + 1)).testBit i = true := by
      rw [Nat.testBit_mod_two_pow, htest, decide_eq_true (Nat.lt_succ_of_le hi)]
      rfl
    have hlog := lt_of_le_of_lt (Nat.ge_two_pow_of_testBit hmasked) hlt
    exact Nat.le_of_lt_succ ((Nat.pow_lt_pow_iff_right (by decide)).mp hlog)

/-- The first set bit from a bit on. -/
theorem least_spec (hx : 2 ^ bit * (x / 2 ^ bit) ≠ 0) :
    x.testBit (bitMath.leastSignificantBit (2 ^ bit * (x / 2 ^ bit))) = true ∧
      ∀ i, bit ≤ i → x.testBit i = true →
        bitMath.leastSignificantBit (2 ^ bit * (x / 2 ^ bit)) ≤ i := by
  obtain ⟨hset, hbelow⟩ := hmath.least _ (Nat.pos_of_ne_zero hx)
  generalize bitMath.leastSignificantBit _ = k at *
  constructor
  · rw [testBit_from, Bool.and_eq_true] at hset
    exact hset.2
  · intro i hi htest
    by_contra hlt
    have hzero := congrArg (fun x => Nat.testBit x i) hbelow
    simp [Nat.testBit_mod_two_pow, testBit_from, not_le.mp hlt, hi, htest] at hzero

end Bits

/-! ### The bits of the bitmap -/

section Nearest

variable {bitMath : BitMath} (hmath : bitMath.Lawful) {pool : Pool}
  (hspacing : 0 < pool.tickSpacing) {tick : ℤ} {word : ℤ} {bit : ℕ}

include hspacing

theorem initialized_iff (hbit : bit < 256) :
    Initialized pool ((256 * word + bit) * pool.tickSpacing) ↔
      (pool.tickBitmap word).toNat.testBit bit = true := by
  unfold Initialized
  rw [Int.mul_ediv_cancel _ hspacing.ne', and_iff_right (Int.dvd_mul_left _ _)]
  have hword : (256 * word + bit) / 256 = word := by omega
  have hmod : ((256 * word + bit) % 256).toNat = bit := by omega
  rw [hword, hmod]

/-- An initialized tick from a first bit of a word to a last bit is one of its bits. -/
theorem exists_bit {other : ℤ} (hother : Initialized pool other) {first last : ℕ}
    (hge : (256 * word + first) * pool.tickSpacing ≤ other)
    (hlt : other < (256 * word + last + 1) * pool.tickSpacing) (hlast : last < 256) :
    ∃ bit, first ≤ bit ∧ bit ≤ last ∧ other = (256 * word + bit) * pool.tickSpacing ∧
      (pool.tickBitmap word).toNat.testBit bit = true := by
  obtain ⟨compressed, rfl⟩ := hother.1
  rw [Int.mul_comm pool.tickSpacing] at hother hge hlt ⊢
  have hge := Int.le_of_mul_le_mul_right hge hspacing
  have hlt := Int.lt_of_mul_lt_mul_right hlt hspacing.le
  obtain ⟨bit, hbit⟩ := Int.eq_ofNat_of_zero_le (show 0 ≤ compressed - 256 * word by omega)
  obtain rfl : compressed = 256 * word + bit := by omega
  exact ⟨bit, by omega, by omega, rfl, (initialized_iff hspacing (by omega)).mp hother⟩

include hmath

theorem nearestLeft (tick : ℤ) :
    NearestLeft pool tick (TickBitmap.nextInitializedTickWithinOneWord bitMath pool tick true) := by
  obtain ⟨word, bit, hbit, htick⟩ := exists_position (tick / pool.tickSpacing)
  have hle := (next_left_eq hmath hspacing tick).1
  have hupper : tick < (256 * word + bit + 1) * pool.tickSpacing := by
    rw [← htick]
    exact Int.lt_ediv_add_one_mul_self tick hspacing
  have hfirst : firstOfWord pool tick = (256 * word + (0 : ℕ)) * pool.tickSpacing := by
    unfold firstOfWord
    rw [htick]
    congr 1
    omega
  rw [next_left hmath hspacing hbit htick] at hle ⊢
  unfold lastInWord at hle ⊢
  dsimp only at hle ⊢
  by_cases hx : (pool.tickBitmap word).toNat % 2 ^ (bit + 1) = 0
  · -- the bits of the word up to the tick's are not set
    rw [if_pos hx, decide_eq_false (not_not.mpr hx)] at *
    refine ⟨hle, hfirst.le, fun other hother hlt => ?_, ?_, fun _ => hfirst.symm⟩
    · by_contra hge
      obtain ⟨bit', _, hbit', _, htest⟩ :=
        exists_bit hspacing hother hlt.le (lt_of_le_of_lt (not_lt.mp hge) hupper) hbit
      exact unset_upTo hx hbit' htest
    · constructor
      · intro h
        cases h
      · intro h
        exact absurd ((initialized_iff hspacing (by omega)).mp h) (unset_upTo hx (Nat.zero_le _))
  · have hmost := most_le hmath hx
    obtain ⟨hset, hlast⟩ := most_spec hmath hx
    rw [if_neg hx] at hle ⊢
    rw [decide_eq_true hx]
    generalize bitMath.mostSignificantBit _ = m at *
    refine ⟨hle, ?_, fun other hother hother_lt => ?_, ?_, fun h => by cases h⟩
    · rw [hfirst]
      exact Int.mul_le_mul_of_nonneg_right (by omega) hspacing.le
    · by_contra hge
      obtain ⟨bit', hbit_ge, hbit', rfl, htest⟩ :=
        exists_bit hspacing hother hother_lt.le (lt_of_le_of_lt (not_lt.mp hge) hupper) hbit
      obtain rfl : bit' = m := le_antisymm (hlast bit' hbit' htest) hbit_ge
      exact lt_irrefl _ hother_lt
    · exact iff_of_true rfl ((initialized_iff hspacing (by omega)).mpr hset)

theorem nearestRight (tick : ℤ) :
    NearestRight pool tick
      (TickBitmap.nextInitializedTickWithinOneWord bitMath pool tick false) := by
  obtain ⟨word, bit, hbit, htick⟩ := exists_position (tick / pool.tickSpacing + 1)
  have hlt := (next_right_eq hmath hspacing tick).1
  have hlower : ∀ other, tick < other → pool.tickSpacing ∣ other →
      (256 * word + bit) * pool.tickSpacing ≤ other := by
    rintro _ hother ⟨compressed, rfl⟩
    rw [← htick, Int.mul_comm pool.tickSpacing] at *
    apply Int.mul_le_mul_of_nonneg_right _ hspacing.le
    exact Int.add_one_le_of_lt (Int.ediv_lt_of_lt_mul hspacing hother)
  have hlast : lastOfWord pool tick = (256 * word + (255 : ℕ)) * pool.tickSpacing := by
    unfold lastOfWord
    rw [htick]
    congr 1
    omega
  rw [next_right hmath hspacing hbit htick] at hlt ⊢
  unfold firstInWord at hlt ⊢
  dsimp only at hlt ⊢
  by_cases hx : 2 ^ bit * ((pool.tickBitmap word).toNat / 2 ^ bit) = 0
  · -- the bits of the word from the next tick's on are not set
    rw [if_pos hx] at hlt ⊢
    rw [decide_eq_false (not_not.mpr hx)]
    refine ⟨hlt, hlast.ge, fun other hother hother_gt => ?_, ?_, fun _ => hlast.symm⟩
    · by_contra hother_lt
      have hend : other < (256 * word + (255 : ℕ) + 1) * pool.tickSpacing := by
        refine (not_le.mp hother_lt).trans_le ?_
        exact Int.mul_le_mul_of_nonneg_right (by omega) hspacing.le
      obtain ⟨bit', hbit', _, _, htest⟩ :=
        exists_bit hspacing hother (hlower other hother_gt hother.1) hend (by omega)
      exact unset_from hx hbit' htest
    · constructor
      · intro h
        cases h
      · intro h
        exact absurd ((initialized_iff hspacing (by decide : 255 < 256)).mp h)
          (unset_from hx (by omega))
  · obtain ⟨_, hleast_lt⟩ := least_ge hmath (pool.tickBitmap word).isLt hx
    obtain ⟨hset, hfirst⟩ := least_spec hmath hx
    rw [if_neg hx] at hlt ⊢
    rw [decide_eq_true hx]
    generalize bitMath.leastSignificantBit _ = k at *
    refine ⟨hlt, ?_, fun other hother hother_gt => ?_, ?_, fun h => by cases h⟩
    · rw [hlast]
      exact Int.mul_le_mul_of_nonneg_right (by omega) hspacing.le
    · by_contra hother_lt
      have hend : other < (256 * word + k + 1) * pool.tickSpacing := by
        refine (not_le.mp hother_lt).trans_le ?_
        exact Int.mul_le_mul_of_nonneg_right (by omega) hspacing.le
      obtain ⟨bit', hbit', hle, rfl, htest⟩ :=
        exists_bit hspacing hother (hlower other hother_gt hother.1) hend hleast_lt
      obtain rfl : bit' = k := le_antisymm hle (hfirst bit' hbit' htest)
      exact hother_lt le_rfl
    · exact iff_of_true rfl ((initialized_iff hspacing hleast_lt).mpr hset)

end Nearest

/-- The nearest initialized tick in a direction, or the end of the word that is searched. -/
def Nearest (pool : Pool) (lte : Bool) (tick : ℤ) (next : ℤ × Bool) : Prop :=
  if lte then NearestLeft pool tick next else NearestRight pool tick next

theorem nearest {bitMath : BitMath} (hmath : bitMath.Lawful) {pool : Pool}
    (hspacing : 0 < pool.tickSpacing) (tick : ℤ) (lte : Bool) :
    Nearest pool lte tick
      (TickBitmap.nextInitializedTickWithinOneWord bitMath pool tick lte) := by
  cases lte with
  | true => exact nearestLeft hmath hspacing tick
  | false => exact nearestRight hmath hspacing tick

/-- There is only one nearest tick. -/
theorem Nearest.unique {pool : Pool} {lte : Bool} {tick : ℤ} {next next' : ℤ × Bool}
    (h : Nearest pool lte tick next) (h' : Nearest pool lte tick next') : next = next' := by
  have hle : ∀ {next next' : ℤ × Bool}, Nearest pool lte tick next → Nearest pool lte tick next' →
      next.1 ≤ next'.1 := by
    intro next next' h h'
    cases lte with
    | true =>
      change NearestLeft pool tick next at h
      change NearestLeft pool tick next' at h'
      by_cases hinit : next.2 = true
      · by_contra hlt
        have hpassed := h'.none_between _ (h.initialized_iff.mp hinit) (not_le.mp hlt)
        exact absurd h.next_le (not_le.mpr hpassed)
      · rw [h.eq_first (Bool.eq_false_iff.mpr hinit)]
        exact h'.first_le
    | false =>
      change NearestRight pool tick next at h
      change NearestRight pool tick next' at h'
      by_cases hinit : next'.2 = true
      · exact h.none_between _ (h'.initialized_iff.mp hinit) h'.lt_next
      · rw [h'.eq_last (Bool.eq_false_iff.mpr hinit)]
        exact h.le_last
  have htick : next.1 = next'.1 := le_antisymm (hle h h') (hle h' h)
  have hflag : next.2 = true ↔ next'.2 = true := by
    cases lte with
    | true =>
      change NearestLeft pool tick next at h
      change NearestLeft pool tick next' at h'
      rw [h.initialized_iff, h'.initialized_iff, htick]
    | false =>
      change NearestRight pool tick next at h
      change NearestRight pool tick next' at h'
      rw [h.initialized_iff, h'.initialized_iff, htick]
  exact Prod.ext htick (Bool.eq_iff_iff.mpr hflag)

/-! ## Spacings whose words fit -/

section Fits

variable {pool : Pool} (hspacing : 0 < pool.tickSpacing) (hfits : pool.tickSpacing ≤ 2 ^ 15)
  {tick : ℤ} (hmin : -887272 ≤ tick) (hmax : tick ≤ 887272) {next : ℤ × Bool}

include hspacing hfits hmin hmax

theorem NearestLeft.int24_eq (h : NearestLeft pool tick next) : int24 next.1 = next.1 := by
  have hlower := Int.ediv_mul_le tick hspacing.ne'
  have hupper := Int.lt_ediv_add_one_mul_self tick hspacing
  have hfirst : -2 ^ 23 ≤ firstOfWord pool tick := by
    unfold firstOfWord
    generalize tick / pool.tickSpacing = compressed at *
    rw [Int.add_mul] at hupper
    rcases lt_or_ge (compressed / 256) (-1) with hlt | hge
    · -- the spacing is small, for the tick is words away from zero
      have hfar : compressed * pool.tickSpacing ≤ -257 * pool.tickSpacing :=
        Int.mul_le_mul_of_nonneg_right (by omega) hspacing.le
      have hword : (compressed - 255) * pool.tickSpacing
          ≤ 256 * (compressed / 256) * pool.tickSpacing :=
        Int.mul_le_mul_of_nonneg_right (by omega) hspacing.le
      rw [Int.sub_mul] at hword
      omega
    · have hword : -256 * pool.tickSpacing ≤ 256 * (compressed / 256) * pool.tickSpacing :=
        Int.mul_le_mul_of_nonneg_right (by omega) hspacing.le
      omega
  have hle := h.next_le
  have hge := h.first_le
  exact int24_of_fits (by omega) (by omega)

theorem NearestRight.int24_eq (h : NearestRight pool tick next) : int24 next.1 = next.1 := by
  have hlower := Int.ediv_mul_le tick hspacing.ne'
  have hlast : lastOfWord pool tick < 2 ^ 23 := by
    unfold lastOfWord
    generalize tick / pool.tickSpacing = compressed at *
    rcases lt_or_ge ((compressed + 1) / 256) 1 with hlt | hge
    · have hword : (256 * ((compressed + 1) / 256) + 255) * pool.tickSpacing
          ≤ 255 * pool.tickSpacing :=
        Int.mul_le_mul_of_nonneg_right (by omega) hspacing.le
      omega
    · have hfar : 255 * pool.tickSpacing ≤ compressed * pool.tickSpacing :=
        Int.mul_le_mul_of_nonneg_right (by omega) hspacing.le
      have hword : (256 * ((compressed + 1) / 256) + 255) * pool.tickSpacing
          ≤ (compressed + 256) * pool.tickSpacing :=
        Int.mul_le_mul_of_nonneg_right (by omega) hspacing.le
      rw [Int.add_mul compressed] at hword
      omega
  have hge := h.lt_next
  have hle := h.le_last
  exact int24_of_fits (by omega) (by omega)

end Fits

/-! ## The walk -/

/-- The legal range of ticks. -/
structure LegalRange (tickMath : TickMath) : Prop where
  min_eq : tickMath.MIN_TICK = -887272
  max_eq : tickMath.MAX_TICK = 887272

/-- The next ticks of a walk.  It ends at the ends of the legal range, where the price limit is. -/
def tickWalk (search : Pool → ℤ → Bool → ℤ × Bool) (tickMath : TickMath) (pool : Pool)
    (zeroForOne : Bool) : Sweep ℤ ℤ where
  next tick :=
    let next := search pool tick zeroForOne
    (boundTick tickMath next.1, next.2)
  after _ tickNext := if zeroForOne then tickNext - 1 else tickNext
  done tick := decide (if zeroForOne then tick < tickMath.MIN_TICK else tickMath.MAX_TICK ≤ tick)

/-- A turn of `multiswap` that gets to the price of the next tick goes on behind it. -/
theorem shiftTick_eq_step {q : Quoter} {swap : Swap} {state : WalkState} {tick : ℤ}
    {liquidity : ℕ}
    (h : shiftTick q swap state (sqrtPriceNextX96 q swap state.tick) = .ok (tick, liquidity)) :
    tick = (tickWalk q.nextInitializedTickWithinOneWord q.tickMath swap.pool
      swap.zeroForOne).step state.tick := by
  unfold shiftTick at h
  dsimp only at h
  rw [if_pos rfl] at h
  split at h
  · obtain ⟨_, _, hok⟩ := Fallible.bind_eq_ok.mp h
    cases hok
    rfl
  · cases h
    rfl

/-- A point that is next before another one. -/
def Before (zeroForOne : Bool) (tick other : ℤ) : Prop :=
  if zeroForOne then other < tick else tick < other

/-- A tick of the legal range that a walk from a tick gets to. -/
def Ahead (tickMath : TickMath) (zeroForOne : Bool) (tick other : ℤ) : Prop :=
  if zeroForOne then tickMath.MIN_TICK ≤ other ∧ other ≤ tick
  else tick < other ∧ other ≤ tickMath.MAX_TICK

/-- A tick of a walk, the one behind its end included. -/
def OnWalk (tickMath : TickMath) (zeroForOne : Bool) (tick : ℤ) : Prop :=
  (if zeroForOne then tickMath.MIN_TICK - 1 else tickMath.MIN_TICK) ≤ tick ∧
    tick ≤ tickMath.MAX_TICK

/-- How many ticks a walk from a tick has left. -/
def ticksLeft (tickMath : TickMath) (zeroForOne : Bool) (tick : ℤ) : ℕ :=
  (if zeroForOne then tick + 1 - tickMath.MIN_TICK else tickMath.MAX_TICK - tick).toNat

section Walk

variable {tickMath : TickMath} {pool : Pool} {search : Pool → ℤ → Bool → ℤ × Bool}

section Left

variable (hsearch : ∀ tick, tickMath.MIN_TICK ≤ tick → tick ≤ tickMath.MAX_TICK →
  NearestLeft pool tick (search pool tick true))

include hsearch

/-- A turn to the left: the next tick is the nearest one, or the first of the legal range. -/
theorem turn_left (tick : ℤ) (hon : OnWalk tickMath true tick)
    (hdone : (tickWalk search tickMath pool true).done tick = false) :
    tickMath.MIN_TICK ≤ tick ∧ NearestLeft pool tick (search pool tick true) ∧
      (search pool tick true).1 ≤ ((tickWalk search tickMath pool true).next tick).1 ∧
        (((tickWalk search tickMath pool true).next tick).1 = (search pool tick true).1 ∨
          ((tickWalk search tickMath pool true).next tick).1 = tickMath.MIN_TICK) ∧
          tickMath.MIN_TICK ≤ ((tickWalk search tickMath pool true).next tick).1 := by
  have hmin : tickMath.MIN_TICK ≤ tick := not_lt.mp (of_decide_eq_false hdone)
  have hmax := hon.2
  have hnearest := hsearch tick hmin hmax
  have hle := hnearest.next_le
  refine ⟨hmin, hnearest, ?_⟩
  show _ ≤ boundTick tickMath _ ∧ (boundTick tickMath _ = _ ∨ boundTick tickMath _ = _) ∧
    _ ≤ boundTick tickMath _
  unfold boundTick
  split
  · omega
  · rw [if_neg (by omega)]
    omega

theorem covers_left : (tickWalk search tickMath pool true).Covers (OnWalk tickMath true)
    (Before true) (Ahead tickMath true) (Initialized pool) (ticksLeft tickMath true) := by
  have hturn := turn_left hsearch
  have hstep : ∀ tick, (tickWalk search tickMath pool true).step tick
      = ((tickWalk search tickMath pool true).next tick).1 - 1 := fun _ => rfl
  have hflag : ∀ tick, ((tickWalk search tickMath pool true).next tick).2
      = (search pool tick true).2 := fun _ => rfl
  constructor
  · rintro tick hdone other ⟨hge, hle⟩
    have hlt : tick < tickMath.MIN_TICK := of_decide_eq_true hdone
    omega
  · intro tick hon hdone
    obtain ⟨hmin, hnearest, hge, hnext, hfirst⟩ := hturn tick hon hdone
    have hle := hnearest.next_le
    exact ⟨hfirst, by omega⟩
  · intro tick hon hdone hinit
    obtain ⟨hmin, hnearest, hge, hnext, hfirst⟩ := hturn tick hon hdone
    have hle := hnearest.next_le
    rw [hflag, hnearest.initialized_iff]
    rcases hge.lt_or_eq with hlt | heq
    · have hpassed := hnearest.none_between _ hinit hlt
      omega
    · rw [heq]
      exact hinit
  · rintro tick hon hdone other ⟨hother_ge, hother_le⟩ hinit
    obtain ⟨hmin, hnearest, hge, hnext, hfirst⟩ := hturn tick hon hdone
    have hpassed := hnearest.none_between _ hinit
    rw [hstep]
    show _ ∨ tickMath.MIN_TICK ≤ other ∧ other ≤ _
    omega
  · intro tick hon hdone
    obtain ⟨hmin, hnearest, hge, hnext, hfirst⟩ := hturn tick hon hdone
    have hle := hnearest.next_le
    have hmax := hon.2
    rw [hstep]
    show tickMath.MIN_TICK - 1 ≤ _ ∧ _ ≤ tickMath.MAX_TICK
    omega
  · intro tick hon hdone other
    obtain ⟨hmin, hnearest, hge, hnext, hfirst⟩ := hturn tick hon hdone
    have hle := hnearest.next_le
    rw [hstep]
    rintro ⟨hother_ge, hother_le⟩
    exact ⟨⟨hother_ge, by omega⟩, show other < _ by omega⟩
  · intro tick hon hdone
    obtain ⟨hmin, hnearest, hge, hnext, hfirst⟩ := hturn tick hon hdone
    have hle := hnearest.next_le
    rw [hstep]
    show (_ + 1 - tickMath.MIN_TICK).toNat < (tick + 1 - tickMath.MIN_TICK).toNat
    omega

end Left

section Right

variable (hsearch : ∀ tick, tickMath.MIN_TICK ≤ tick → tick ≤ tickMath.MAX_TICK →
  NearestRight pool tick (search pool tick false))

include hsearch

/-- A turn to the right: the next tick is the nearest one, or the last of the legal range. -/
theorem turn_right (tick : ℤ) (hon : OnWalk tickMath false tick)
    (hdone : (tickWalk search tickMath pool false).done tick = false) :
    tick < tickMath.MAX_TICK ∧ NearestRight pool tick (search pool tick false) ∧
      ((tickWalk search tickMath pool false).next tick).1 ≤ (search pool tick false).1 ∧
        (((tickWalk search tickMath pool false).next tick).1 = (search pool tick false).1 ∨
          ((tickWalk search tickMath pool false).next tick).1 = tickMath.MAX_TICK) ∧
          ((tickWalk search tickMath pool false).next tick).1 ≤ tickMath.MAX_TICK := by
  have hmax : tick < tickMath.MAX_TICK := not_le.mp (of_decide_eq_false hdone)
  have hmin : tickMath.MIN_TICK ≤ tick := hon.1
  have hnearest := hsearch tick hmin hmax.le
  have hlt := hnearest.lt_next
  refine ⟨hmax, hnearest, ?_⟩
  show boundTick tickMath _ ≤ _ ∧ (boundTick tickMath _ = _ ∨ boundTick tickMath _ = _) ∧
    boundTick tickMath _ ≤ _
  unfold boundTick
  rw [if_neg (by omega)]
  split <;> omega

theorem covers_right : (tickWalk search tickMath pool false).Covers (OnWalk tickMath false)
    (Before false) (Ahead tickMath false) (Initialized pool) (ticksLeft tickMath false) := by
  have hturn := turn_right hsearch
  have hstep : ∀ tick, (tickWalk search tickMath pool false).step tick
      = ((tickWalk search tickMath pool false).next tick).1 := fun _ => rfl
  have hflag : ∀ tick, ((tickWalk search tickMath pool false).next tick).2
      = (search pool tick false).2 := fun _ => rfl
  constructor
  · rintro tick hdone other ⟨hgt, hle⟩
    have hge : tickMath.MAX_TICK ≤ tick := of_decide_eq_true hdone
    omega
  · intro tick hon hdone
    obtain ⟨hmax, hnearest, hle, hnext, hlast⟩ := hturn tick hon hdone
    have hlt := hnearest.lt_next
    exact ⟨by omega, hlast⟩
  · intro tick hon hdone hinit
    obtain ⟨hmax, hnearest, hle, hnext, hlast⟩ := hturn tick hon hdone
    have hlt := hnearest.lt_next
    have hpassed := hnearest.none_between _ hinit (by omega)
    rw [hflag, hnearest.initialized_iff, le_antisymm hpassed hle]
    exact hinit
  · rintro tick hon hdone other ⟨hother_gt, hother_le⟩ hinit
    obtain ⟨hmax, hnearest, hle, hnext, hlast⟩ := hturn tick hon hdone
    have hpassed := hnearest.none_between _ hinit hother_gt
    rw [hstep]
    show _ ∨ _ < other ∧ other ≤ tickMath.MAX_TICK
    omega
  · intro tick hon hdone
    obtain ⟨hmax, hnearest, hle, hnext, hlast⟩ := hturn tick hon hdone
    have hlt := hnearest.lt_next
    have hmin : tickMath.MIN_TICK ≤ tick := hon.1
    rw [hstep]
    show tickMath.MIN_TICK ≤ _ ∧ _ ≤ tickMath.MAX_TICK
    omega
  · intro tick hon hdone other
    obtain ⟨hmax, hnearest, hle, hnext, hlast⟩ := hturn tick hon hdone
    have hlt := hnearest.lt_next
    rw [hstep]
    rintro ⟨hother_gt, hother_le⟩
    exact ⟨⟨by omega, hother_le⟩, hother_gt⟩
  · intro tick hon hdone
    obtain ⟨hmax, hnearest, hle, hnext, hlast⟩ := hturn tick hon hdone
    have hlt := hnearest.lt_next
    rw [hstep]
    show (tickMath.MAX_TICK - _).toNat < (tickMath.MAX_TICK - tick).toNat
    omega

end Right

/-- A flagged tick inside the legal range is initialized. -/
theorem initialized_of_mem {zeroForOne : Bool}
    (hcovers : (tickWalk search tickMath pool zeroForOne).Covers (OnWalk tickMath zeroForOne)
      (Before zeroForOne) (Ahead tickMath zeroForOne) (Initialized pool)
      (ticksLeft tickMath zeroForOne))
    (hsearch : ∀ tick, tickMath.MIN_TICK ≤ tick → tick ≤ tickMath.MAX_TICK →
      Nearest pool zeroForOne tick (search pool tick zeroForOne))
    {turns : ℕ} {tick : ℤ} (hon : OnWalk tickMath zeroForOne tick) {other : ℤ}
    (hmem : (other, true) ∈ (tickWalk search tickMath pool zeroForOne).visited turns tick)
    (hmin : tickMath.MIN_TICK < other) (hmax : other < tickMath.MAX_TICK) :
    Initialized pool other := by
  obtain ⟨tick', hon', hdone, hnext⟩ := hcovers.exists_of_mem hon hmem
  obtain ⟨htick, hflag⟩ := Prod.ext_iff.mp hnext
  have hinside : (search pool tick' zeroForOne).1 = other := by
    change boundTick tickMath _ = other at htick
    unfold boundTick at htick
    split at htick
    · omega
    · split at htick <;> omega
  cases zeroForOne with
  | true =>
    have hlegal := (hsearch tick' (not_lt.mp (of_decide_eq_false hdone)) hon'.2).initialized_iff
    rw [← hinside]
    exact hlegal.mp hflag
  | false =>
    have hlegal := (hsearch tick' hon'.1 hon'.2).initialized_iff
    rw [← hinside]
    exact hlegal.mp hflag

end Walk

/-! ## The searches of the contracts -/

section Contracts

variable {bitMath : BitMath} (hmath : bitMath.Lawful) {pool : Pool}
  (hspacing : 0 < pool.tickSpacing) (hint24 : pool.tickSpacing < 2 ^ 23) {tick : ℤ}
  (hmin : -887272 ≤ tick) (hmax : tick ≤ 887272) (lte : Bool)

include hspacing hmin hmax

include hmath in
theorem uniswapV3_eq :
    UniswapV3.nextInitializedTickWithinOneWord bitMath pool tick lte =
      Prod.map int24 id (TickBitmap.nextInitializedTickWithinOneWord bitMath pool tick lte) := by
  cases lte with
  | true => exact UniswapV3.next_left hmath hspacing hmin hmax
  | false => exact UniswapV3.next_right hmath hspacing hmin hmax

include hint24 in
theorem algebra_eq :
    Algebra.nextInitializedTickWithinOneWord pool tick lte =
      Prod.map int24 id (TickBitmap.nextInitializedTickWithinOneWord natBitMath pool tick lte) := by
  cases lte with
  | true =>
    rw [Algebra.next_left hspacing hmin hmax hint24,
      AlgebraTickTable.nextInitializedTick_left hspacing]
  | false =>
    rw [Algebra.next_right hspacing hmin hmax hint24,
      AlgebraTickTable.nextInitializedTick_right hspacing]

/-- Where the words fit, nothing is wrapped around. -/
theorem Nearest.int24_eq (hfits : pool.tickSpacing ≤ 2 ^ 15) {next : ℤ × Bool}
    (h : Nearest pool lte tick next) : Prod.map int24 id next = next := by
  have heq : int24 next.1 = next.1 := by
    cases lte with
    | true => exact NearestLeft.int24_eq hspacing hfits hmin hmax h
    | false => exact NearestRight.int24_eq hspacing hfits hmin hmax h
  exact Prod.ext heq rfl

end Contracts

theorem tickWalk_covers {tickMath : TickMath} {pool : Pool} {search : Pool → ℤ → Bool → ℤ × Bool}
    {zeroForOne : Bool} (hsearch : ∀ tick, tickMath.MIN_TICK ≤ tick → tick ≤ tickMath.MAX_TICK →
      Nearest pool zeroForOne tick (search pool tick zeroForOne)) :
    (tickWalk search tickMath pool zeroForOne).Covers (OnWalk tickMath zeroForOne)
      (Before zeroForOne) (Ahead tickMath zeroForOne) (Initialized pool)
      (ticksLeft tickMath zeroForOne) := by
  cases zeroForOne with
  | true => exact covers_left hsearch
  | false => exact covers_right hsearch

/-- Both searches are the same.  They find the nearest tick, wrapped to an `int24`; where the
spacing is at most `2 ^ 15` that is the tick itself, and a walk by either visits all initialized
ticks in order. -/
theorem tickSearches_spec {bitMath : BitMath} (hmath : bitMath.Lawful) {tickMath : TickMath}
    (hrange : LegalRange tickMath) {pool : Pool} (hspacing : 0 < pool.tickSpacing)
    (hint24 : pool.tickSpacing < 2 ^ 23) {tick : ℤ} (hmin : tickMath.MIN_TICK ≤ tick)
    (hmax : tick ≤ tickMath.MAX_TICK) (lte : Bool) :
    Algebra.nextInitializedTickWithinOneWord pool tick lte =
        UniswapV3.nextInitializedTickWithinOneWord bitMath pool tick lte ∧
      ∀ search ∈ [UniswapV3.nextInitializedTickWithinOneWord bitMath,
          Algebra.nextInitializedTickWithinOneWord],
        (∃ next, Nearest pool lte tick next ∧ search pool tick lte = (int24 next.1, next.2)) ∧
          (pool.tickSpacing ≤ 2 ^ 15 → Nearest pool lte tick (search pool tick lte) ∧
            ∀ turns, (tickMath.MAX_TICK - tickMath.MIN_TICK).toNat + 1 < turns →
              let visited := (tickWalk search tickMath pool lte).visited turns tick
              Sweep.Visits (Before lte) (Ahead tickMath lte) (Initialized pool) tick visited ∧
                ∀ other, (other, true) ∈ visited → tickMath.MIN_TICK < other →
                  other < tickMath.MAX_TICK → Initialized pool other) := by
  obtain ⟨hmin_eq, hmax_eq⟩ := hrange
  have hfound : ∀ search ∈ [UniswapV3.nextInitializedTickWithinOneWord bitMath,
      Algebra.nextInitializedTickWithinOneWord], ∀ tick, tickMath.MIN_TICK ≤ tick →
        tick ≤ tickMath.MAX_TICK → search pool tick lte =
          Prod.map int24 id
            (TickBitmap.nextInitializedTickWithinOneWord bitMath pool tick lte) := by
    intro search hmem tick hmin hmax
    rw [hmin_eq] at hmin
    rw [hmax_eq] at hmax
    rw [List.mem_cons, List.mem_singleton] at hmem
    rcases hmem with rfl | rfl
    · exact uniswapV3_eq hmath hspacing hmin hmax lte
    · rw [algebra_eq hspacing hint24 hmin hmax lte,
        (nearest natBitMath_lawful hspacing tick lte).unique (nearest hmath hspacing tick lte)]
  constructor
  · have huniswapV3 := hfound _ List.mem_cons_self tick hmin hmax
    have halgebra := hfound _ (List.mem_cons_of_mem _ List.mem_cons_self) tick hmin hmax
    exact halgebra.trans huniswapV3.symm
  · intro search hmem
    refine ⟨⟨_, nearest hmath hspacing tick lte, hfound search hmem tick hmin hmax⟩, ?_⟩
    intro hfits
    have hsearch : ∀ tick, tickMath.MIN_TICK ≤ tick → tick ≤ tickMath.MAX_TICK →
        Nearest pool lte tick (search pool tick lte) := by
      intro tick hmin hmax
      have hnearest := nearest hmath hspacing tick lte
      rw [hfound search hmem tick hmin hmax,
        hnearest.int24_eq hspacing (hmin_eq ▸ hmin) (hmax_eq ▸ hmax) lte hfits]
      exact hnearest
    refine ⟨hsearch tick hmin hmax, fun turns hturns => ?_⟩
    have hon : OnWalk tickMath lte tick := by
      refine ⟨?_, hmax⟩
      split <;> omega
    have hleft : ticksLeft tickMath lte tick < turns := by
      unfold ticksLeft
      split <;> omega
    have hcovers := tickWalk_covers hsearch
    exact ⟨hcovers.visits hon hleft,
      fun other hmem => initialized_of_mem hcovers hsearch hon hmem⟩

/-- A pool whose ticks -60 and 120 are initialized. -/
def marked : Pool :=
  { StraightCurve.pool with
    tickSpacing := 60
    tickBitmap := fun word =>
      if word = -1 then .twoPow 256 255 else if word = 0 then .twoPow 256 2 else 0 }

theorem tickSearches_spec_marked :
    UniswapV3.nextInitializedTickWithinOneWord natBitMath marked (-1) true = (-60, true) ∧
      Algebra.nextInitializedTickWithinOneWord marked (-1) true =
        UniswapV3.nextInitializedTickWithinOneWord natBitMath marked (-1) true ∧
        NearestLeft marked (-1)
          (UniswapV3.nextInitializedTickWithinOneWord natBitMath marked (-1) true) := by
  have hspec := @tickSearches_spec _ natBitMath_lawful StraightCurve.tickMath ⟨rfl, rfl⟩ marked
    (by decide) (by decide) (-1) (by decide) (by decide) true
  refine ⟨by decide +kernel, hspec.1, ?_⟩
  exact ((hspec.2 _ List.mem_cons_self).2 (by decide)).1

/-! ## A spacing whose words do not fit -/

/-- A pool without initialized ticks. -/
def bare (tickSpacing : ℤ) : Pool :=
  { StraightCurve.pool with tickSpacing, tickBitmap := fun _ => 0 }

/-- To the left of -1 the end of the word is wrapped around to the right of it. -/
theorem bare_wraps :
    UniswapV3.nextInitializedTickWithinOneWord natBitMath (bare 32769) (-1) true
      = (8388352, false) := by
  decide +kernel

theorem not_nearest_of_large_spacing :
    ¬ ∀ (pool : Pool) (tick : ℤ) (lte : Bool), 0 < pool.tickSpacing → pool.tickSpacing < 2 ^ 23 →
      -887272 ≤ tick → tick ≤ 887272 →
        Nearest pool lte tick
          (UniswapV3.nextInitializedTickWithinOneWord natBitMath pool tick lte) := by
  intro h
  have hnearest : NearestLeft (bare 32769) (-1) _ :=
    h (bare 32769) (-1) true (by decide) (by decide) (by decide) (by decide)
  rw [bare_wraps] at hnearest
  have hle := hnearest.next_le
  omega

end ZeroExApi.TickWalk
