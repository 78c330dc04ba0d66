/-
# ZeroExApi.TickBitmap — the next initialized tick of a Uniswap V3 pool

`nextInitializedTickWithinOneWord` and `position` of `contracts/src/UniswapV3MultiQuoter.sol`.  The
bits of a word say which of 256 ticks are initialized; the bit positions are those of the library
`BitMath`, which is a parameter.

What the walks rest on: from every tick between a tick and its next tick, the next tick is the same
(`next_left_eq`, `next_right_eq`).  So a walk that stops between two ticks goes on to where it was
going.
-/

import ZeroExApi.MultiQuoter
import Mathlib.Data.Nat.Bitwise
import Mathlib.Data.Nat.Factorization.Basic
import Mathlib.Tactic.Ring

namespace ZeroExApi.TickBitmap

open ZeroExApi.MultiQuoter

/-- `BitMath`. -/
structure BitMath where
  mostSignificantBit : ℕ → ℕ
  leastSignificantBit : ℕ → ℕ

/-- What `BitMath` is documented to find. -/
structure BitMath.Lawful (bitMath : BitMath) : Prop where
  most : ∀ x, 0 < x → 2 ^ bitMath.mostSignificantBit x ≤ x ∧
    x < 2 ^ (bitMath.mostSignificantBit x + 1)
  least : ∀ x, 0 < x → x.testBit (bitMath.leastSignificantBit x) = true ∧
    x % 2 ^ bitMath.leastSignificantBit x = 0

/-- Bit positions by logarithm, the lowest one that of the largest power of two that divides. -/
def natBitMath : BitMath where
  mostSignificantBit := Nat.log2
  leastSignificantBit x := (x.gcd (2 ^ x.log2)).log2

theorem natBitMath_lawful : natBitMath.Lawful where
  most x hx := ⟨Nat.log2_self_le hx.ne', Nat.lt_log2_self⟩
  least x hx := by
    obtain ⟨k, m, hodd, rfl⟩ := Nat.exists_eq_two_pow_mul_odd hx.ne'
    have hle : k ≤ (2 ^ k * m).log2 :=
      (Nat.le_log2 hx.ne').mpr (Nat.le_mul_of_pos_right _ hodd.pos)
    have hgcd : (2 ^ k * m).gcd (2 ^ (2 ^ k * m).log2) = 2 ^ k := by
      generalize (2 ^ k * m).log2 = n at hle ⊢
      obtain ⟨d, rfl⟩ := Nat.exists_eq_add_of_le hle
      have hcoprime : m.gcd (2 ^ d) = 1 := (Nat.coprime_two_right.mpr hodd).pow_right d
      rw [Nat.pow_add, Nat.gcd_mul_left, hcoprime, Nat.mul_one]
    have hleast : natBitMath.leastSignificantBit (2 ^ k * m) = k := by
      show ((2 ^ k * m).gcd (2 ^ (2 ^ k * m).log2)).log2 = k
      rw [hgcd, Nat.log2_two_pow]
    rw [hleast]
    constructor
    · rw [Nat.testBit_two_pow_mul, decide_eq_true le_rfl, Nat.sub_self, Nat.testBit_zero,
        Nat.odd_iff.mp hodd]
      rfl
    · exact Nat.mul_mod_right _ _

/-- `position`: the word of a compressed tick and its bit. -/
def position (tick : ℤ) : ℤ × ℕ := (tick / 256, (tick % 256).toNat)

/-- A tick in units of the spacing, rounded towards negative infinity. -/
def compress (tick tickSpacing : ℤ) : ℤ :=
  let compressed := tick.tdiv tickSpacing
  if tick < 0 ∧ tick.tmod tickSpacing ≠ 0 then compressed - 1 else compressed

/-- `nextInitializedTickWithinOneWord`. -/
def nextInitializedTickWithinOneWord (bitMath : BitMath) (pool : Pool) (tick : ℤ) (lte : Bool) :
    ℤ × Bool :=
  let compressed := compress tick pool.tickSpacing
  if lte then
    let (wordPos, bitPos) := position compressed
    -- all the ones at or to the right of the bit
    let mask := (1 <<< bitPos) - 1 + (1 <<< bitPos)
    let masked := (pool.tickBitmap wordPos).toNat &&& mask
    let initialized := decide (masked ≠ 0)
    let next :=
      if initialized then
        (compressed - (bitPos - bitMath.mostSignificantBit masked : ℕ)) * pool.tickSpacing
      else
        (compressed - bitPos) * pool.tickSpacing
    (next, initialized)
  else
    let (wordPos, bitPos) := position (compressed + 1)
    -- all the ones at or to the left of the bit
    let mask := 2 ^ 256 - 1 - ((1 <<< bitPos) - 1)
    let masked := (pool.tickBitmap wordPos).toNat &&& mask
    let initialized := decide (masked ≠ 0)
    let next :=
      if initialized then
        (compressed + 1 + (bitMath.leastSignificantBit masked - bitPos : ℕ)) * pool.tickSpacing
      else
        (compressed + 1 + (255 - bitPos : ℕ)) * pool.tickSpacing
    (next, initialized)

/-! ## Compressed ticks -/

theorem compress_eq (tick : ℤ) {tickSpacing : ℤ} (h : 0 < tickSpacing) :
    compress tick tickSpacing = tick / tickSpacing := by
  unfold compress
  dsimp only
  rcases lt_or_ge tick 0 with hneg | hpos
  · by_cases hmod : tick.tmod tickSpacing = 0
    · rw [if_neg fun hand => hand.2 hmod]
      exact Int.tdiv_eq_ediv_of_dvd (Int.dvd_of_tmod_eq_zero hmod)
    · rw [if_pos ⟨hneg, hmod⟩]
      have hdvd : ¬ tickSpacing ∣ tick := fun hd => hmod (Int.tmod_eq_zero_of_dvd hd)
      have hediv := Int.tdiv_eq_ediv (a := tick) (b := tickSpacing)
      rw [hediv, if_neg (by omega), Int.sign_eq_one_of_pos h]
      omega
  · rw [if_neg fun hand => by omega]
    exact Int.tdiv_eq_ediv_of_nonneg hpos

/-- The compressed ticks of one word. -/
theorem position_eq {word : ℤ} {bit : ℕ} (h : bit < 256) :
    position (256 * word + bit) = (word, bit) := by
  unfold position
  have hdiv : (256 * word + bit) / 256 = word := by omega
  have hmod : ((256 * word + bit) % 256).toNat = bit := by omega
  rw [hdiv, hmod]

theorem exists_position (tick : ℤ) : ∃ (word : ℤ) (bit : ℕ), bit < 256 ∧ tick = 256 * word + bit :=
  ⟨tick / 256, (tick % 256).toNat, by omega, by omega⟩

/-! ## To the left -/

theorem mask_left (x b : ℕ) : x &&& ((1 <<< b) - 1 + (1 <<< b)) = x % 2 ^ (b + 1) := by
  have hmask : (1 <<< b) - 1 + (1 <<< b) = 2 ^ (b + 1) - 1 := by
    have hpos := Nat.two_pow_pos b
    rw [Nat.one_shiftLeft, Nat.pow_succ]
    omega
  rw [hmask, Nat.and_two_pow_sub_one_eq_mod]

/-- The last initialized tick of a word up to a bit, or its first tick. -/
def lastInWord (bitMath : BitMath) (pool : Pool) (word : ℤ) (bit : ℕ) : ℤ × Bool :=
  let masked := (pool.tickBitmap word).toNat % 2 ^ (bit + 1)
  ((256 * word + if masked = 0 then 0 else bitMath.mostSignificantBit masked) * pool.tickSpacing,
    decide (masked ≠ 0))

section Left

variable {bitMath : BitMath} (hmath : bitMath.Lawful) {pool : Pool}
  (hspacing : 0 < pool.tickSpacing)
  {tick : ℤ} {word : ℤ} {bit : ℕ}

include hmath in
/-- The last initialized bit up to a bit is no later. -/
theorem most_le {x : ℕ} (hx : x % 2 ^ (bit + 1) ≠ 0) :
    bitMath.mostSignificantBit (x % 2 ^ (bit + 1)) ≤ bit := by
  obtain ⟨hle, _⟩ := hmath.most _ (Nat.pos_of_ne_zero hx)
  have hlt := Nat.mod_lt x (Nat.two_pow_pos (bit + 1))
  have hpow := lt_of_le_of_lt hle hlt
  have hlt' := (Nat.pow_lt_pow_iff_right (by omega)).mp hpow
  omega

include hmath hspacing in
theorem next_left (hbit : bit < 256) (htick : tick / pool.tickSpacing = 256 * word + bit) :
    nextInitializedTickWithinOneWord bitMath pool tick true = lastInWord bitMath pool word bit := by
  unfold nextInitializedTickWithinOneWord lastInWord
  rw [compress_eq tick hspacing, htick]
  dsimp only
  rw [if_pos rfl, position_eq hbit]
  dsimp only
  rw [mask_left]
  by_cases hx : (pool.tickBitmap word).toNat % 2 ^ (bit + 1) = 0
  · rw [hx]
    simp
  · have hle := most_le hmath hx
    rw [if_neg hx, decide_eq_true hx, if_pos rfl]
    have hsum : (256 * word + bit
          - (bit - bitMath.mostSignificantBit
            ((pool.tickBitmap word).toNat % 2 ^ (bit + 1)) : ℕ) : ℤ)
        = 256 * word + bitMath.mostSignificantBit
          ((pool.tickBitmap word).toNat % 2 ^ (bit + 1)) := by
      omega
    rw [hsum]

include hmath in
/-- Between the last initialized bit and the bit nothing changes. -/
theorem lastInWord_eq {bit' : ℕ} (hle : bit' ≤ bit)
    (hge : (lastInWord bitMath pool word bit).1 ≤ (256 * word + bit') * pool.tickSpacing)
    (hspacing : 0 < pool.tickSpacing) :
    lastInWord bitMath pool word bit' = lastInWord bitMath pool word bit := by
  unfold lastInWord at hge ⊢
  dsimp only at hge ⊢
  have hmod : (pool.tickBitmap word).toNat % 2 ^ (bit' + 1)
      = (pool.tickBitmap word).toNat % 2 ^ (bit + 1) % 2 ^ (bit' + 1) := by
    rw [Nat.mod_mod_of_dvd _ (Nat.pow_dvd_pow 2 (by omega))]
  by_cases hx : (pool.tickBitmap word).toNat % 2 ^ (bit + 1) = 0
  · rw [hmod, hx]
    simp
  · rw [if_neg hx] at hge
    have hbit := Int.le_of_mul_le_mul_right hge hspacing
    obtain ⟨_, hlt⟩ := hmath.most _ (Nat.pos_of_ne_zero hx)
    have hpow : 2 ^ (bitMath.mostSignificantBit
        ((pool.tickBitmap word).toNat % 2 ^ (bit + 1)) + 1) ≤ 2 ^ (bit' + 1) :=
      Nat.pow_le_pow_right (by omega) (by omega)
    rw [hmod, Nat.mod_eq_of_lt (lt_of_lt_of_le hlt hpow)]

include hmath hspacing in
/-- The next tick to the left is not to the right, and from every tick in between it is the same. -/
theorem next_left_eq (tick : ℤ) :
    let next := nextInitializedTickWithinOneWord bitMath pool tick true
    next.1 ≤ tick ∧ ∀ tick', next.1 ≤ tick' → tick' ≤ tick →
      nextInitializedTickWithinOneWord bitMath pool tick' true = next := by
  obtain ⟨word, bit, hbit, hcompressed⟩ := exists_position (tick / pool.tickSpacing)
  dsimp only
  rw [next_left hmath hspacing hbit hcompressed]
  have hfirst : 256 * word * pool.tickSpacing ≤ (lastInWord bitMath pool word bit).1 := by
    unfold lastInWord
    apply Int.mul_le_mul_of_nonneg_right _ hspacing.le
    split <;> omega
  have hlast : (lastInWord bitMath pool word bit).1 ≤ (256 * word + bit) * pool.tickSpacing := by
    unfold lastInWord
    apply Int.mul_le_mul_of_nonneg_right _ hspacing.le
    split
    · omega
    · rename_i hx
      have hle := most_le hmath hx
      omega
  have htick : (256 * word + bit) * pool.tickSpacing ≤ tick := by
    rw [← hcompressed]
    exact Int.ediv_mul_le tick hspacing.ne'
  refine ⟨hlast.trans htick, fun tick' hge hle => ?_⟩
  have hdiv_le : tick' / pool.tickSpacing ≤ 256 * word + bit := by
    rw [← hcompressed]
    exact Int.ediv_le_ediv hspacing hle
  have hdiv_ge : 256 * word ≤ tick' / pool.tickSpacing :=
    Int.le_ediv_of_mul_le hspacing (hfirst.trans hge)
  -- the compressed tick is in the same word
  obtain ⟨bit', hbit'⟩ :=
    Int.eq_ofNat_of_zero_le (show 0 ≤ tick' / pool.tickSpacing - 256 * word by omega)
  have hcompressed' : tick' / pool.tickSpacing = 256 * word + bit' := by omega
  rw [next_left hmath hspacing (by omega) hcompressed']
  apply lastInWord_eq hmath (by omega) _ hspacing
  -- the next tick is a multiple of the spacing
  have hmul : (lastInWord bitMath pool word bit).1 / pool.tickSpacing ≤ 256 * word + bit' := by
    rw [← hcompressed']
    exact Int.ediv_le_ediv hspacing hge
  have hexact : (lastInWord bitMath pool word bit).1 / pool.tickSpacing * pool.tickSpacing
      = (lastInWord bitMath pool word bit).1 := by
    apply Int.ediv_mul_cancel
    exact Int.dvd_mul_left _ _
  rw [← hexact]
  exact Int.mul_le_mul_of_nonneg_right hmul hspacing.le

end Left

/-! ## To the right -/

theorem mask_right {x b : ℕ} (hx : x < 2 ^ 256) (hb : b < 256) :
    x &&& (2 ^ 256 - 1 - ((1 <<< b) - 1)) = 2 ^ b * (x / 2 ^ b) := by
  have hmask : 2 ^ 256 - 1 - ((1 <<< b) - 1) = 2 ^ b * (2 ^ (256 - b) - 1) := by
    have hpow : 2 ^ b * 2 ^ (256 - b) = 2 ^ 256 := by
      rw [← Nat.pow_add, Nat.add_sub_cancel' hb.le]
    have hpos := Nat.two_pow_pos b
    rw [Nat.one_shiftLeft, Nat.mul_sub, hpow, Nat.mul_one]
    omega
  rw [hmask]
  apply Nat.eq_of_testBit_eq
  intro i
  rw [Nat.testBit_and, Nat.testBit_two_pow_mul, Nat.testBit_two_pow_mul,
    Nat.testBit_two_pow_sub_one, Nat.testBit_div_two_pow]
  by_cases hi : b ≤ i
  · rw [decide_eq_true hi, Bool.true_and, Bool.true_and, Nat.sub_add_cancel hi]
    by_cases hlast : i < 256
    · rw [decide_eq_true (by omega), Bool.and_true]
    · have hfalse := Nat.testBit_lt_two_pow (lt_of_lt_of_le hx
        (Nat.pow_le_pow_right (by omega) (Nat.le_of_not_lt hlast)))
      rw [hfalse, Bool.false_and]
  · rw [decide_eq_false hi, Bool.false_and, Bool.false_and, Bool.and_false]

/-- The first initialized tick of a word from a bit on, or its last tick. -/
def firstInWord (bitMath : BitMath) (pool : Pool) (word : ℤ) (bit : ℕ) : ℤ × Bool :=
  let masked := 2 ^ bit * ((pool.tickBitmap word).toNat / 2 ^ bit)
  ((256 * word + if masked = 0 then 255 else bitMath.leastSignificantBit masked)
      * pool.tickSpacing,
    decide (masked ≠ 0))

section Right

variable {bitMath : BitMath} (hmath : bitMath.Lawful) {pool : Pool}
  (hspacing : 0 < pool.tickSpacing)
  {tick : ℤ} {word : ℤ} {bit : ℕ}

include hmath in
/-- The first initialized bit from a bit on is no earlier, and one of the word. -/
theorem least_ge {x : ℕ} (hx : x < 2 ^ 256) (hne : 2 ^ bit * (x / 2 ^ bit) ≠ 0) :
    bit ≤ bitMath.leastSignificantBit (2 ^ bit * (x / 2 ^ bit)) ∧
      bitMath.leastSignificantBit (2 ^ bit * (x / 2 ^ bit)) < 256 := by
  obtain ⟨htest, _⟩ := hmath.least _ (Nat.pos_of_ne_zero hne)
  constructor
  · by_contra hlt
    rw [Nat.testBit_two_pow_mul, decide_eq_false (by omega)] at htest
    cases htest
  · by_contra hge
    have hle : 2 ^ bit * (x / 2 ^ bit) < 2 ^ 256 := lt_of_le_of_lt (Nat.mul_div_le x _) hx
    have hfalse := Nat.testBit_lt_two_pow (lt_of_lt_of_le hle
      (Nat.pow_le_pow_right (by omega) (Nat.le_of_not_lt hge)))
    rw [htest] at hfalse
    cases hfalse

include hmath hspacing in
theorem next_right (hbit : bit < 256) (htick : tick / pool.tickSpacing + 1 = 256 * word + bit) :
    nextInitializedTickWithinOneWord bitMath pool tick false =
      firstInWord bitMath pool word bit := by
  have hword := (pool.tickBitmap word).isLt
  unfold nextInitializedTickWithinOneWord firstInWord
  rw [compress_eq tick hspacing]
  dsimp only
  rw [if_neg Bool.false_ne_true, htick, position_eq hbit]
  dsimp only
  rw [mask_right hword hbit]
  by_cases hx : 2 ^ bit * ((pool.tickBitmap word).toNat / 2 ^ bit) = 0
  · have hsum : (256 * word + bit + (255 - bit : ℕ) : ℤ) = 256 * word + 255 := by omega
    rw [hx]
    simp [hsum]
  · obtain ⟨hge, _⟩ := least_ge hmath hword hx
    rw [if_neg hx, decide_eq_true hx, if_pos rfl]
    have hsum : (256 * word + bit
          + (bitMath.leastSignificantBit
            (2 ^ bit * ((pool.tickBitmap word).toNat / 2 ^ bit)) - bit : ℕ) : ℤ)
        = 256 * word
          + bitMath.leastSignificantBit (2 ^ bit * ((pool.tickBitmap word).toNat / 2 ^ bit)) := by
      omega
    rw [hsum]

include hmath in
/-- Between the bit and the first initialized bit nothing changes. -/
theorem firstInWord_eq {bit' : ℕ} (hle : bit ≤ bit')
    (hge : (256 * word + bit') * pool.tickSpacing ≤ (firstInWord bitMath pool word bit).1)
    (hspacing : 0 < pool.tickSpacing) :
    firstInWord bitMath pool word bit' = firstInWord bitMath pool word bit := by
  unfold firstInWord at hge ⊢
  dsimp only at hge ⊢
  have hdiv : (pool.tickBitmap word).toNat / 2 ^ bit'
      = 2 ^ bit * ((pool.tickBitmap word).toNat / 2 ^ bit) / 2 ^ bit' := by
    have hpow : 2 ^ bit' = 2 ^ bit * 2 ^ (bit' - bit) := by
      rw [← Nat.pow_add, Nat.add_sub_cancel' hle]
    rw [hpow, Nat.mul_div_mul_left _ _ (Nat.two_pow_pos bit), Nat.div_div_eq_div_mul]
  by_cases hx : 2 ^ bit * ((pool.tickBitmap word).toNat / 2 ^ bit) = 0
  · rw [hdiv, hx]
    simp
  · rw [if_neg hx] at hge
    have hbit := Int.le_of_mul_le_mul_right hge hspacing
    obtain ⟨_, hmod⟩ := hmath.least _ (Nat.pos_of_ne_zero hx)
    have hdvd : 2 ^ bit' ∣ 2 ^ bit * ((pool.tickBitmap word).toNat / 2 ^ bit) :=
      (Nat.pow_dvd_pow 2 (by omega)).trans (Nat.dvd_of_mod_eq_zero hmod)
    rw [hdiv, Nat.mul_div_cancel' hdvd]

include hmath hspacing in
/-- The next tick to the right is to the right, and from every tick before it it is the same. -/
theorem next_right_eq (tick : ℤ) :
    let next := nextInitializedTickWithinOneWord bitMath pool tick false
    tick < next.1 ∧ ∀ tick', tick ≤ tick' → tick' < next.1 →
      nextInitializedTickWithinOneWord bitMath pool tick' false = next := by
  obtain ⟨word, bit, hbit, hcompressed⟩ := exists_position (tick / pool.tickSpacing + 1)
  dsimp only
  rw [next_right hmath hspacing hbit hcompressed]
  have hword := (pool.tickBitmap word).isLt
  have hfirst : (256 * word + bit) * pool.tickSpacing ≤ (firstInWord bitMath pool word bit).1 := by
    unfold firstInWord
    apply Int.mul_le_mul_of_nonneg_right _ hspacing.le
    split
    · omega
    · rename_i hx
      have hge := (least_ge hmath hword hx).1
      omega
  have hlast : (firstInWord bitMath pool word bit).1 ≤ (256 * word + 255) * pool.tickSpacing := by
    unfold firstInWord
    apply Int.mul_le_mul_of_nonneg_right _ hspacing.le
    split
    · omega
    · rename_i hx
      have hlt := (least_ge hmath hword hx).2
      omega
  have htick : tick < (256 * word + bit) * pool.tickSpacing := by
    rw [← hcompressed]
    exact Int.lt_ediv_add_one_mul_self tick hspacing
  refine ⟨lt_of_lt_of_le htick hfirst, fun tick' hge hlt => ?_⟩
  have hdiv_ge : 256 * word + bit ≤ tick' / pool.tickSpacing + 1 := by
    rw [← hcompressed]
    have hle := Int.ediv_le_ediv hspacing hge
    omega
  have hdiv_lt : tick' / pool.tickSpacing < 256 * word + 255 :=
    Int.ediv_lt_of_lt_mul hspacing (lt_of_lt_of_le hlt hlast)
  -- the tick after the compressed one is in the same word
  obtain ⟨bit', hbit'⟩ :=
    Int.eq_ofNat_of_zero_le (show 0 ≤ tick' / pool.tickSpacing + 1 - 256 * word by omega)
  have hcompressed' : tick' / pool.tickSpacing + 1 = 256 * word + bit' := by omega
  rw [next_right hmath hspacing (by omega) hcompressed']
  apply firstInWord_eq hmath (by omega) _ hspacing
  -- the next tick is a multiple of the spacing
  have hexact : (firstInWord bitMath pool word bit).1 / pool.tickSpacing * pool.tickSpacing
      = (firstInWord bitMath pool word bit).1 := by
    apply Int.ediv_mul_cancel
    exact Int.dvd_mul_left _ _
  have hdiv : tick' / pool.tickSpacing <
      (firstInWord bitMath pool word bit).1 / pool.tickSpacing := by
    apply Int.ediv_lt_of_lt_mul hspacing
    rw [hexact]
    exact hlt
  rw [← hexact]
  exact Int.mul_le_mul_of_nonneg_right (by omega) hspacing.le

end Right

end ZeroExApi.TickBitmap
