/-
# ZeroExApi.AlgebraTickTable — the next initialized tick of an Algebra pool

`nextInitializedTickWithinOneWord` and the bit positions of `contracts/src/AlgebraMultiQuoter.sol`,
which are not those of a library: `getSingleSignificantBit` finds the bit of a word with only one,
by eight masks, and `getMostSignificantBit` spreads the highest bit to the right first.

The next tick is that of the tick bitmap (`nextInitializedTick_left`, `nextInitializedTick_right`),
so what walks rest on holds for it too.
-/

import ZeroExApi.TickBitmap

namespace ZeroExApi.AlgebraTickTable

open ZeroExApi.MultiQuoter ZeroExApi.TickBitmap

/-! ## Bit positions -/

/-- `iszero`. -/
def iszero (word : BitVec 256) : BitVec 256 := if word = 0 then 1 else 0

/-- `getSingleSignificantBit`. -/
def getSingleSignificantBit (word : BitVec 256) : BitVec 256 :=
  iszero (word &&& 0x5555555555555555555555555555555555555555555555555555555555555555)
  ||| iszero (word &&& 0x00000000000000000000000000000000FFFFFFFFFFFFFFFFFFFFFFFFFFFFFFFF) <<< 7
  ||| iszero (word &&& 0x0000000000000000FFFFFFFFFFFFFFFF0000000000000000FFFFFFFFFFFFFFFF) <<< 6
  ||| iszero (word &&& 0x00000000FFFFFFFF00000000FFFFFFFF00000000FFFFFFFF00000000FFFFFFFF) <<< 5
  ||| iszero (word &&& 0x0000FFFF0000FFFF0000FFFF0000FFFF0000FFFF0000FFFF0000FFFF0000FFFF) <<< 4
  ||| iszero (word &&& 0x00FF00FF00FF00FF00FF00FF00FF00FF00FF00FF00FF00FF00FF00FF00FF00FF) <<< 3
  ||| iszero (word &&& 0x0F0F0F0F0F0F0F0F0F0F0F0F0F0F0F0F0F0F0F0F0F0F0F0F0F0F0F0F0F0F0F0F) <<< 2
  ||| iszero (word &&& 0x3333333333333333333333333333333333333333333333333333333333333333) <<< 1

/-- A bit or'ed to the right by a distance. -/
def spread (word : BitVec 256) (distance : ℕ) : BitVec 256 := word ||| word >>> distance

/-- `getMostSignificantBit`. -/
def getMostSignificantBit (word : BitVec 256) : BitVec 256 :=
  let word := spread word 1
  let word := spread word 2
  let word := spread word 4
  let word := spread word 8
  let word := spread word 16
  let word := spread word 32
  let word := spread word 64
  let word := spread word 128
  getSingleSignificantBit (word - word >>> 1)

/-- The bit of a word with only one. -/
theorem getSingleSignificantBit_eq {bit : ℕ} (h : bit < 256) :
    (getSingleSignificantBit (BitVec.twoPow 256 bit)).toNat = bit := by
  have hall : ∀ i : Fin 256, (getSingleSignificantBit (BitVec.twoPow 256 i)).toNat = i := by
    decide +kernel
  exact hall ⟨bit, h⟩

/-- Spreading doubles how far a bit has been spread. -/
theorem spread_spread {word spreaded : BitVec 256} {distance : ℕ}
    (h : ∀ i, spreaded.getLsbD i = true ↔ ∃ d < distance, word.getLsbD (i + d) = true) (i : ℕ) :
    (spread spreaded distance).getLsbD i = true ↔
      ∃ d < distance + distance, word.getLsbD (i + d) = true := by
  unfold spread
  rw [BitVec.getLsbD_or, BitVec.getLsbD_ushiftRight, Bool.or_eq_true, h, h]
  constructor
  · rintro (⟨d, hd, hbit⟩ | ⟨d, hd, hbit⟩)
    · exact ⟨d, by omega, hbit⟩
    · refine ⟨distance + d, by omega, ?_⟩
      rw [← Nat.add_assoc, Nat.add_comm i]
      exact hbit
  · rintro ⟨d, hd, hbit⟩
    rcases Nat.lt_or_ge d distance with hlt | hge
    · exact .inl ⟨d, hlt, hbit⟩
    · refine .inr ⟨d - distance, by omega, ?_⟩
      have hsum : distance + i + (d - distance) = i + d := by omega
      rw [hsum]
      exact hbit

/-- A word spread to the right altogether has all the bits up to its highest one. -/
theorem toNat_of_spread {word spreaded : BitVec 256} (hword : word.toNat ≠ 0)
    (h : ∀ i, spreaded.getLsbD i = true ↔ ∃ d < 256, word.getLsbD (i + d) = true) :
    spreaded.toNat = 2 ^ (word.toNat.log2 + 1) - 1 := by
  apply Nat.eq_of_testBit_eq
  intro i
  rw [Nat.testBit_two_pow_sub_one, Bool.eq_iff_iff, BitVec.testBit_toNat, h, decide_eq_true_iff]
  constructor
  · rintro ⟨d, _, hbit⟩
    have hle := Nat.ge_two_pow_of_testBit hbit
    have hlog := (Nat.le_log2 hword).mpr hle
    omega
  · intro hi
    have hlt := (Nat.log2_lt hword).mpr word.isLt
    refine ⟨word.toNat.log2 - i, by omega, ?_⟩
    rw [Nat.add_sub_cancel' (by omega)]
    exact Nat.testBit_log2 hword

/-- The highest bit of a word. -/
theorem getMostSignificantBit_eq {word : BitVec 256} (h : word.toNat ≠ 0) :
    (getMostSignificantBit word).toNat = word.toNat.log2 := by
  have hlt := (Nat.log2_lt h).mpr word.isLt
  unfold getMostSignificantBit
  dsimp only
  have hone : ∀ i, word.getLsbD i = true ↔ ∃ d < 1, word.getLsbD (i + d) = true := by
    intro i
    constructor
    · exact fun hbit => ⟨0, by omega, hbit⟩
    · rintro ⟨d, hd, hbit⟩
      have hzero : d = 0 := by omega
      subst hzero
      exact hbit
  have hspread := toNat_of_spread h (spread_spread (spread_spread (spread_spread (spread_spread
    (spread_spread (spread_spread (spread_spread (spread_spread hone))))))))
  generalize spread (spread (spread (spread (spread (spread (spread (spread word 1) 2) 4) 8) 16) 32)
    64) 128 = spreaded at hspread ⊢
  have hpow : 2 ^ word.toNat.log2 ≤ 2 ^ 255 := Nat.pow_le_pow_right (by omega) (by omega)
  have hpos := Nat.two_pow_pos word.toNat.log2
  rw [Nat.pow_succ] at hspread
  have honly : spreaded - spreaded >>> 1 = BitVec.twoPow 256 word.toNat.log2 := by
    apply BitVec.eq_of_toNat_eq
    rw [BitVec.toNat_sub, BitVec.toNat_ushiftRight, BitVec.toNat_twoPow, hspread,
      Nat.shiftRight_eq_div_pow]
    omega
  rw [honly, getSingleSignificantBit_eq hlt]

/-- The lowest bit of a word, isolated. -/
theorem neg_and_self {word : BitVec 256} (h : word.toNat ≠ 0) :
    -word &&& word = BitVec.twoPow 256 (natBitMath.leastSignificantBit word.toNat) := by
  obtain ⟨hbit, hlower⟩ := natBitMath_lawful.least word.toNat (Nat.pos_of_ne_zero h)
  generalize natBitMath.leastSignificantBit word.toNat = k at hbit hlower ⊢
  have hbelow : ∀ j < k, word.getLsbD j = false := by
    intro j hj
    have hzero := congrArg (fun x => Nat.testBit x j) hlower
    rw [← BitVec.testBit_toNat]
    simpa [Nat.testBit_mod_two_pow, hj] using hzero
  apply BitVec.eq_of_getLsbD_eq
  intro i hi
  rw [BitVec.getLsbD_and, BitVec.getLsbD_neg, BitVec.getLsbD_twoPow]
  rw [BitVec.testBit_toNat] at hbit
  rcases Nat.lt_trichotomy i k with hlt | rfl | hgt
  · rw [hbelow i hlt]
    simp [Nat.ne_of_gt hlt]
  · have hnone : ¬ ∃ j < i, word.getLsbD j = true := by
      rintro ⟨j, hj, htrue⟩
      rw [hbelow j hj] at htrue
      cases htrue
    simp [hi, hbit, hnone]
  · have hsome : ∃ j < i, word.getLsbD j = true := ⟨k, hgt, hbit⟩
    simp [hi, hsome, Nat.ne_of_lt hgt]

/-! ## The next tick -/

/-- `nextInitializedTickWithinOneWord`, over the pool's tick table. -/
def nextInitializedTick (pool : Pool) (tick : ℤ) (lte : Bool) : ℤ × Bool :=
  let tick := compress tick pool.tickSpacing
  if lte then
    let (rowNumber, bitNumber) := position tick
    -- all the ones at or to the right of the bit
    let row := pool.tickBitmap rowNumber <<< (255 - bitNumber)
    if row ≠ 0 then
      ((tick - (255 - (getMostSignificantBit row).toNat : ℕ)) * pool.tickSpacing, true)
    else
      ((tick - bitNumber) * pool.tickSpacing, false)
  else
    let tick := tick + 1
    let (rowNumber, bitNumber) := position tick
    -- all the ones at or to the left of the bit
    let row := pool.tickBitmap rowNumber >>> bitNumber
    if row ≠ 0 then
      ((tick + (getSingleSignificantBit (-row &&& row)).toNat) * pool.tickSpacing, true)
    else
      ((tick + (255 - bitNumber : ℕ)) * pool.tickSpacing, false)

/-- A bit below which there is none is the lowest one. -/
theorem least_eq {x k : ℕ} (hbit : x.testBit k = true) (hlower : x % 2 ^ k = 0) :
    natBitMath.leastSignificantBit x = k := by
  have hpos : 0 < x := Nat.pos_of_ne_zero fun hzero => by simp [hzero] at hbit
  obtain ⟨hbit', hlower'⟩ := natBitMath_lawful.least x hpos
  have hnone : ∀ {i j : ℕ}, x % 2 ^ i = 0 → x.testBit j = true → i ≤ j := by
    intro i j hzero htrue
    by_contra hlt
    have hbelow := congrArg (fun y => Nat.testBit y j) hzero
    simp [Nat.testBit_mod_two_pow, htrue, Nat.lt_of_not_le hlt] at hbelow
  exact Nat.le_antisymm (hnone hlower' hbit) (hnone hlower hbit')

theorem least_two_pow_mul {x k : ℕ} (hx : x ≠ 0) :
    natBitMath.leastSignificantBit (2 ^ k * x) = k + natBitMath.leastSignificantBit x := by
  obtain ⟨hbit, hlower⟩ := natBitMath_lawful.least x (Nat.pos_of_ne_zero hx)
  apply least_eq
  · rw [Nat.testBit_two_pow_mul, decide_eq_true (Nat.le_add_right _ _), Nat.add_sub_cancel_left,
      hbit]
    rfl
  · rw [Nat.pow_add, Nat.mul_mod_mul_left, hlower, Nat.mul_zero]

theorem log2_two_pow_mul {x k : ℕ} (hx : x ≠ 0) : (2 ^ k * x).log2 = k + x.log2 := by
  have hne : 2 ^ k * x ≠ 0 := Nat.mul_ne_zero (Nat.two_pow_pos k).ne' hx
  rw [Nat.log2_eq_iff hne, Nat.add_assoc, Nat.pow_add, Nat.pow_add]
  exact ⟨Nat.mul_le_mul_left _ (Nat.log2_self_le hx),
    Nat.mul_lt_mul_of_pos_left Nat.lt_log2_self (Nat.two_pow_pos k)⟩

section NextTick

variable {pool : Pool} (hspacing : 0 < pool.tickSpacing) (tick : ℤ)

include hspacing

theorem nextInitializedTick_left :
    nextInitializedTick pool tick true =
      nextInitializedTickWithinOneWord natBitMath pool tick true := by
  obtain ⟨word, bit, hbit, htick⟩ := exists_position (tick / pool.tickSpacing)
  rw [next_left natBitMath_lawful hspacing hbit htick]
  unfold nextInitializedTick lastInWord
  rw [compress_eq tick hspacing, htick]
  dsimp only
  rw [if_pos rfl, position_eq hbit]
  dsimp only
  -- the bits at or to the right of the bit, at the left end of the word
  have hrow : (pool.tickBitmap word <<< (255 - bit)).toNat =
      2 ^ (255 - bit) * ((pool.tickBitmap word).toNat % 2 ^ (bit + 1)) := by
    have hpow : 2 ^ 256 = 2 ^ (255 - bit) * 2 ^ (bit + 1) := by
      rw [← Nat.pow_add]
      congr 1
      omega
    rw [BitVec.toNat_shiftLeft, Nat.shiftLeft_eq, Nat.mul_comm, hpow, Nat.mul_mod_mul_left]
  by_cases hx : (pool.tickBitmap word).toNat % 2 ^ (bit + 1) = 0
  · rw [hx, Nat.mul_zero] at hrow
    rw [if_neg (not_not.mpr (BitVec.eq_of_toNat_eq hrow)), hx]
    simp
  · have hne : (pool.tickBitmap word <<< (255 - bit)).toNat ≠ 0 := by
      rw [hrow]
      exact Nat.mul_ne_zero (Nat.two_pow_pos _).ne' hx
    have hle := most_le natBitMath_lawful hx
    change Nat.log2 _ ≤ bit at hle
    rw [if_pos fun hzero => hne (by rw [hzero]; rfl), getMostSignificantBit_eq hne, hrow,
      log2_two_pow_mul hx, if_neg hx, decide_eq_true hx]
    show ((256 * word + bit - (255 - (255 - bit + _) : ℕ)) * pool.tickSpacing, true) =
      ((256 * word + (Nat.log2 _ : ℕ)) * pool.tickSpacing, true)
    congr 2
    omega

theorem nextInitializedTick_right :
    nextInitializedTick pool tick false =
      nextInitializedTickWithinOneWord natBitMath pool tick false := by
  obtain ⟨word, bit, hbit, htick⟩ := exists_position (tick / pool.tickSpacing + 1)
  rw [next_right natBitMath_lawful hspacing hbit htick]
  unfold nextInitializedTick firstInWord
  rw [compress_eq tick hspacing]
  dsimp only
  rw [if_neg Bool.false_ne_true, htick, position_eq hbit]
  dsimp only
  have hrow : (pool.tickBitmap word >>> bit).toNat = (pool.tickBitmap word).toNat / 2 ^ bit := by
    rw [BitVec.toNat_ushiftRight, Nat.shiftRight_eq_div_pow]
  by_cases hx : (pool.tickBitmap word).toNat / 2 ^ bit = 0
  · rw [hx] at hrow
    have hsum : (256 * word + bit + (255 - bit : ℕ) : ℤ) = 256 * word + 255 := by omega
    rw [if_neg (not_not.mpr (BitVec.eq_of_toNat_eq hrow)), hx, hsum]
    simp
  · have hne : (pool.tickBitmap word >>> bit).toNat ≠ 0 := by
      rw [hrow]
      exact hx
    have hmul : 2 ^ bit * ((pool.tickBitmap word).toNat / 2 ^ bit) ≠ 0 :=
      Nat.mul_ne_zero (Nat.two_pow_pos _).ne' hx
    have hlt := (least_ge natBitMath_lawful (pool.tickBitmap word).isLt hmul).2
    rw [least_two_pow_mul hx] at hlt
    rw [if_pos fun hzero => hne (by rw [hzero]; rfl), neg_and_self hne, hrow,
      getSingleSignificantBit_eq (by omega), if_neg hmul, decide_eq_true hmul,
      least_two_pow_mul hx]
    congr 2
    omega

end NextTick

end ZeroExApi.AlgebraTickTable
