/-
# ZeroExApi.TickSearch — the next initialized tick, on machine integers

`nextInitializedTickWithinOneWord` of `contracts/src/UniswapV3MultiQuoter.sol` and of
`contracts/src/AlgebraMultiQuoter.sol`, with the types of the contracts: `int24` for ticks, `int16`
and `uint8` for their positions, and words in the assembly of the second, whose shift to the right
is the logical one.

Ticks of the legal range have their word and their bit in these types, so both are the searches over
the integers, and what they return is wrapped to an `int24`.
-/

import ZeroExApi.AlgebraTickTable
import ZeroExApi.Lib.EvmInt

namespace ZeroExApi.TickSearch

open ZeroExApi.MultiQuoter ZeroExApi.TickBitmap ZeroExApi.AlgebraTickTable ZeroExApi.Lib

def int24 (x : ℤ) : ℤ := sint 24 x

def int16 (x : ℤ) : ℤ := sint 16 x

def uint8 (x : ℤ) : ℕ := (x % 2 ^ 8).toNat

theorem int24_of_fits {x : ℤ} (hle : -2 ^ 23 ≤ x) (hlt : x < 2 ^ 23) : int24 x = x :=
  sint_of_fits hle hlt

theorem int16_of_fits {x : ℤ} (hle : -2 ^ 15 ≤ x) (hlt : x < 2 ^ 15) : int16 x = x :=
  sint_of_fits hle hlt

theorem uint8_of_fits {n : ℕ} (h : n < 256) : uint8 n = n := by
  unfold uint8
  omega

/-! ## The searches -/

namespace UniswapV3

/-- `position`. -/
def position (tick : ℤ) : ℤ × ℕ := (int16 (tick >>> (8 : ℕ)), uint8 (tick.tmod 256))

/-- `nextInitializedTickWithinOneWord`. -/
def nextInitializedTickWithinOneWord (bitMath : BitMath) (pool : Pool) (tick : ℤ) (lte : Bool) :
    ℤ × Bool :=
  let compressed := int24 (tick.tdiv pool.tickSpacing)
  -- round towards negative infinity
  let compressed :=
    if tick < 0 ∧ tick.tmod pool.tickSpacing ≠ 0 then int24 (compressed - 1) else compressed
  if lte then
    let (wordPos, bitPos) := position compressed
    -- all the 1s at or to the right of the current bitPos
    let mask := (1#256 <<< bitPos) - 1 + (1#256 <<< bitPos)
    let masked := pool.tickBitmap wordPos &&& mask
    let initialized := decide (masked ≠ 0)
    let next :=
      if initialized then
        int24 (int24 (compressed - uint8 (bitPos - bitMath.mostSignificantBit masked.toNat))
          * pool.tickSpacing)
      else
        int24 (int24 (compressed - bitPos) * pool.tickSpacing)
    (next, initialized)
  else
    -- start from the word of the next tick, since the current tick state doesn't matter
    let (wordPos, bitPos) := position (int24 (compressed + 1))
    -- all the 1s at or to the left of the bitPos
    let mask := ~~~((1#256 <<< bitPos) - 1)
    let masked := pool.tickBitmap wordPos &&& mask
    let initialized := decide (masked ≠ 0)
    let next :=
      if initialized then
        int24 (int24 (int24 (compressed + 1)
          + uint8 (bitMath.leastSignificantBit masked.toNat - bitPos)) * pool.tickSpacing)
      else
        int24 (int24 (int24 (compressed + 1) + uint8 (255 - bitPos)) * pool.tickSpacing)
    (next, initialized)

end UniswapV3

namespace Algebra

/-- A tick in units of the spacing, in assembly. -/
def compress (tick tickSpacing : BitVec 256) : BitVec 256 :=
  tick.sdiv tickSpacing - (slt tick 0 &&& ~~~iszero (smod tick tickSpacing))

/-- `rowNumber` and `bitNumber`, in assembly. -/
def position (tick : BitVec 256) : ℤ × ℕ :=
  let bitNumber := tick &&& 0xFF
  let rowNumber := tick >>> 8
  ((rowNumber.setWidth 16).toInt, (bitNumber.setWidth 8).toNat)

/-- `nextInitializedTickWithinOneWord`. -/
def nextInitializedTickWithinOneWord (pool : Pool) (tick : ℤ) (lte : Bool) : ℤ × Bool :=
  let tick := compress (BitVec.ofInt 256 tick) (BitVec.ofInt 256 pool.tickSpacing)
  if lte then
    let (rowNumber, bitNumber) := position tick
    -- all the 1s at or to the right of the current bitNumber
    let row := pool.tickBitmap rowNumber <<< uint8 (255 - bitNumber)
    if row ≠ 0 then
      let tick := int24 (tick.toInt - uint8 (255 - (getMostSignificantBit row).toNat))
      (int24 (tick * pool.tickSpacing), true)
    else
      let tick := int24 (tick.toInt - bitNumber)
      (int24 (tick * pool.tickSpacing), false)
  else
    let tick := int24 (tick.toInt + 1)
    let (rowNumber, bitNumber) := position (BitVec.ofInt 256 tick)
    -- all the 1s at or to the left of the bitNumber
    let row := pool.tickBitmap rowNumber >>> bitNumber
    if row ≠ 0 then
      let tick := int24 (tick + (getSingleSignificantBit (-row &&& row)).toNat)
      (int24 (tick * pool.tickSpacing), true)
    else
      let tick := int24 (tick + uint8 (255 - bitNumber))
      (int24 (tick * pool.tickSpacing), false)

end Algebra

/-! ## Positions -/

section Positions

variable {tick : ℤ} (hmin : -2 ^ 23 ≤ tick) (hmax : tick < 2 ^ 23)

include hmin hmax

theorem UniswapV3.position_eq : UniswapV3.position tick = TickBitmap.position tick := by
  unfold UniswapV3.position TickBitmap.position uint8
  have hword : int16 (tick >>> (8 : ℕ)) = tick / 256 := by
    rw [Int.shiftRight_eq_div_pow]
    exact int16_of_fits (by omega) (by omega)
  have hbit : tick.tmod 256 % 2 ^ 8 = tick % 256 := by
    rw [Int.tmod_eq_emod]
    split <;> omega
  rw [hword, hbit]

/-- The logical shift of a negative tick leaves its word in the lowest bits. -/
theorem Algebra.position_eq :
    Algebra.position (BitVec.ofInt 256 tick) = TickBitmap.position tick := by
  unfold Algebra.position TickBitmap.position
  dsimp only
  have hword : ((BitVec.ofInt 256 tick >>> 8).setWidth 16).toInt = tick / 256 := by
    rw [BitVec.toInt_eq_toNat_bmod, BitVec.toNat_setWidth, BitVec.toNat_ushiftRight,
      BitVec.toNat_ofInt, Nat.shiftRight_eq_div_pow]
    have hlow : (((tick % (2 ^ 256 : ℕ)).toNat / 2 ^ 8 % 2 ^ 16 : ℕ) : ℤ)
        = tick / 256 % (2 ^ 16 : ℕ) := by
      omega
    rw [hlow, Int.emod_bmod]
    exact int16_of_fits (by omega) (by omega)
  have hbit : ((BitVec.ofInt 256 tick &&& 0xFF).setWidth 8).toNat = (tick % 256).toNat := by
    have hmask : (0xFF : BitVec 256).toNat = 2 ^ 8 - 1 := by decide
    rw [BitVec.toNat_setWidth, BitVec.toNat_and, hmask, Nat.and_two_pow_sub_one_eq_mod,
      BitVec.toNat_ofInt]
    omega
  rw [hword, hbit]

end Positions

/-! ## Compressed ticks -/

section Compress

variable {tick tickSpacing : ℤ} (hmin : -887272 ≤ tick) (hmax : tick ≤ 887272)
  (hspacing : 0 < tickSpacing)

include hmin hmax hspacing

theorem tdiv_legal : -887272 ≤ tick.tdiv tickSpacing ∧ tick.tdiv tickSpacing ≤ 887272 := by
  rcases lt_or_ge tick 0 with hneg | hpos
  · have hle := Int.tdiv_nonneg (show 0 ≤ -tick by omega) hspacing.le
    have hge := Int.tdiv_le_self tickSpacing (show 0 ≤ -tick by omega)
    rw [Int.neg_tdiv] at hle hge
    omega
  · have hge := Int.tdiv_nonneg hpos hspacing.le
    have hle := Int.tdiv_le_self tickSpacing hpos
    omega

theorem Algebra.compress_eq (hfits : tickSpacing < 2 ^ 23) :
    Algebra.compress (BitVec.ofInt 256 tick) (BitVec.ofInt 256 tickSpacing)
      = BitVec.ofInt 256 (tick / tickSpacing) := by
  have htick : FitsInt256 tick := ⟨by omega, by omega⟩
  have hword : FitsInt256 tickSpacing := ⟨by omega, by omega⟩
  obtain ⟨hge, hle⟩ := tdiv_legal hmin hmax hspacing
  unfold Algebra.compress
  rw [sdiv_ofInt htick hword, smod_ofInt htick hword hspacing, slt_ofInt_zero htick,
    ← TickBitmap.compress_eq tick hspacing]
  unfold TickBitmap.compress iszero
  by_cases hneg : tick < 0
  · by_cases hmod : tick.tmod tickSpacing = 0
    · rw [hmod]
      simp [hneg]
    · have hrem : BitVec.ofInt 256 (tick.tmod tickSpacing) ≠ 0 := by
        have hgt := Int.lt_tmod_of_pos tick hspacing
        have hlt := Int.tmod_lt_of_pos tick hspacing
        exact ofInt_ne_zero ⟨by omega, by omega⟩ hmod
      have hone : (1 : BitVec 256) &&& ~~~0 = 1 := by decide
      rw [if_pos hneg, if_neg hrem, if_pos ⟨hneg, hmod⟩, hone, Int.sub_eq_add_neg,
        BitVec.ofInt_add, BitVec.sub_eq_add_neg]
      rfl
  · rw [if_neg hneg]
    simp [hneg]

theorem ediv_legal : -887272 ≤ tick / tickSpacing ∧ tick / tickSpacing ≤ 887272 := by
  constructor
  · apply Int.le_ediv_of_mul_le hspacing
    omega
  · apply Int.le_of_lt_add_one
    apply Int.ediv_lt_of_lt_mul hspacing
    omega

/-- The compressed tick of the first search. -/
theorem UniswapV3.compress_eq :
    (if tick < 0 ∧ tick.tmod tickSpacing ≠ 0 then int24 (int24 (tick.tdiv tickSpacing) - 1)
      else int24 (tick.tdiv tickSpacing)) = tick / tickSpacing := by
  obtain ⟨hge, hle⟩ := tdiv_legal hmin hmax hspacing
  rw [int24_of_fits (x := tick.tdiv tickSpacing) (by omega) (by omega),
    int24_of_fits (by omega) (by omega)]
  exact TickBitmap.compress_eq tick hspacing

end Compress

/-! ## The searches over the integers -/

theorem toNat_one_shiftLeft {bit : ℕ} (h : bit < 256) : (1#256 <<< bit).toNat = 1 <<< bit := by
  have hlt : 1 <<< bit < 2 ^ 256 := by
    rw [Nat.one_shiftLeft]
    exact (Nat.pow_lt_pow_iff_right (by omega)).mpr h
  rw [BitVec.toNat_shiftLeft]
  exact Nat.mod_eq_of_lt hlt

theorem one_le_one_shiftLeft {bit : ℕ} (h : bit < 256) : 1 ≤ 1#256 <<< bit := by
  rw [BitVec.le_def, toNat_one_shiftLeft h, Nat.one_shiftLeft]
  exact Nat.one_le_two_pow

theorem toNat_and_mask_left (row : BitVec 256) {bit : ℕ} (h : bit < 256) :
    (row &&& ((1#256 <<< bit) - 1 + (1#256 <<< bit))).toNat
      = row.toNat &&& ((1 <<< bit) - 1 + (1 <<< bit)) := by
  have hlast : 1 <<< bit ≤ 2 ^ 255 := by
    rw [Nat.one_shiftLeft]
    exact Nat.pow_le_pow_right (by omega) (by omega)
  rw [BitVec.toNat_and, BitVec.toNat_add, BitVec.toNat_sub_of_le (one_le_one_shiftLeft h),
    toNat_one_shiftLeft h]
  congr 1
  exact Nat.mod_eq_of_lt (show 1 <<< bit - 1 + 1 <<< bit < 2 ^ 256 by omega)

theorem toNat_and_mask_right (row : BitVec 256) {bit : ℕ} (h : bit < 256) :
    (row &&& ~~~((1#256 <<< bit) - 1)).toNat
      = row.toNat &&& (2 ^ 256 - 1 - ((1 <<< bit) - 1)) := by
  rw [BitVec.toNat_and, BitVec.toNat_not, BitVec.toNat_sub_of_le (one_le_one_shiftLeft h),
    toNat_one_shiftLeft h]
  rfl

theorem ne_zero_iff_toNat (row : BitVec 256) : row ≠ 0 ↔ row.toNat ≠ 0 :=
  not_congr BitVec.toNat_inj.symm

theorem uint8_sub (bit : ℕ) (h : bit < 256) : uint8 (255 - bit) = 255 - bit := by
  unfold uint8
  omega

theorem getMostSignificantBit_lt {row : BitVec 256} (h : row ≠ 0) :
    (getMostSignificantBit row).toNat < 256 := by
  have hne := (ne_zero_iff_toNat row).mp h
  rw [getMostSignificantBit_eq hne]
  exact (Nat.log2_lt hne).mpr row.isLt

theorem getSingleSignificantBit_lt {row : BitVec 256} (h : row ≠ 0) :
    (getSingleSignificantBit (-row &&& row)).toNat < 256 := by
  have hne := (ne_zero_iff_toNat row).mp h
  obtain ⟨hbit, _⟩ := natBitMath_lawful.least row.toNat (Nat.pos_of_ne_zero hne)
  have hpow := lt_of_le_of_lt (Nat.ge_two_pow_of_testBit hbit) row.isLt
  have hlt := (Nat.pow_lt_pow_iff_right (by omega)).mp hpow
  rw [neg_and_self hne, getSingleSignificantBit_eq hlt]
  exact hlt

section Searches

variable {bitMath : BitMath} (hmath : bitMath.Lawful) {pool : Pool}
  (hspacing : 0 < pool.tickSpacing) {tick : ℤ} (hmin : -887272 ≤ tick) (hmax : tick ≤ 887272)

include hmath hspacing hmin hmax

theorem UniswapV3.next_left :
    UniswapV3.nextInitializedTickWithinOneWord bitMath pool tick true =
      Prod.map int24 id (TickBitmap.nextInitializedTickWithinOneWord bitMath pool tick true) := by
  obtain ⟨word, bit, hbit, htick⟩ := exists_position (tick / pool.tickSpacing)
  obtain ⟨hge, hle⟩ := ediv_legal hmin hmax hspacing
  unfold UniswapV3.nextInitializedTickWithinOneWord TickBitmap.nextInitializedTickWithinOneWord
  dsimp only
  rw [UniswapV3.compress_eq hmin hmax hspacing, TickBitmap.compress_eq tick hspacing, if_pos rfl,
    if_pos rfl, UniswapV3.position_eq (by omega) (by omega), htick, TickBitmap.position_eq hbit]
  rw [htick] at hge hle
  dsimp only
  have hmask := toNat_and_mask_left (pool.tickBitmap word) hbit
  rw [← hmask]
  generalize hmasked : pool.tickBitmap word &&& ((1#256 <<< bit) - 1 + (1#256 <<< bit)) = masked
    at hmask ⊢
  rw [mask_left] at hmask
  by_cases hx : masked.toNat = 0
  · rw [decide_eq_false (fun h => (ne_zero_iff_toNat _).mp h hx),
      decide_eq_false (fun h => h hx), if_neg Bool.false_ne_true, if_neg Bool.false_ne_true,
      int24_of_fits (x := 256 * word + bit - bit) (by omega) (by omega)]
    rfl
  · have hmost := most_le hmath (hmask ▸ hx)
    rw [← hmask] at hmost
    rw [decide_eq_true ((ne_zero_iff_toNat _).mpr hx), decide_eq_true hx, if_pos rfl, if_pos rfl,
      ← Int.natCast_sub hmost, uint8_of_fits (by omega),
      int24_of_fits (x := 256 * word + bit - (bit - _ : ℕ)) (by omega) (by omega)]
    rfl

theorem UniswapV3.next_right :
    UniswapV3.nextInitializedTickWithinOneWord bitMath pool tick false =
      Prod.map int24 id (TickBitmap.nextInitializedTickWithinOneWord bitMath pool tick false) := by
  obtain ⟨word, bit, hbit, htick⟩ := exists_position (tick / pool.tickSpacing + 1)
  obtain ⟨hge, hle⟩ := ediv_legal hmin hmax hspacing
  unfold UniswapV3.nextInitializedTickWithinOneWord TickBitmap.nextInitializedTickWithinOneWord
  dsimp only
  rw [UniswapV3.compress_eq hmin hmax hspacing, TickBitmap.compress_eq tick hspacing,
    if_neg Bool.false_ne_true, if_neg Bool.false_ne_true,
    int24_of_fits (x := tick / pool.tickSpacing + 1) (by omega) (by omega),
    UniswapV3.position_eq (by omega) (by omega), htick, TickBitmap.position_eq hbit]
  dsimp only
  have hmask := toNat_and_mask_right (pool.tickBitmap word) hbit
  rw [← hmask]
  generalize hmasked : pool.tickBitmap word &&& ~~~((1#256 <<< bit) - 1) = masked at hmask ⊢
  rw [mask_right (pool.tickBitmap word).isLt hbit] at hmask
  by_cases hx : masked.toNat = 0
  · rw [decide_eq_false (fun h => (ne_zero_iff_toNat _).mp h hx),
      decide_eq_false (fun h => h hx), if_neg Bool.false_ne_true, if_neg Bool.false_ne_true,
      uint8_sub bit hbit,
      int24_of_fits (x := 256 * word + bit + (255 - bit : ℕ)) (by omega) (by omega)]
    rfl
  · obtain ⟨hleast, hlt⟩ := least_ge hmath (pool.tickBitmap word).isLt (hmask ▸ hx)
    rw [← hmask] at hleast hlt
    rw [decide_eq_true ((ne_zero_iff_toNat _).mpr hx), decide_eq_true hx, if_pos rfl, if_pos rfl,
      ← Int.natCast_sub hleast, uint8_of_fits (by omega),
      int24_of_fits (x := 256 * word + bit + (_ - bit : ℕ)) (by omega) (by omega)]
    rfl

omit hmath

variable (hfits : pool.tickSpacing < 2 ^ 23)

include hfits

theorem Algebra.next_left :
    Algebra.nextInitializedTickWithinOneWord pool tick true =
      Prod.map int24 id (nextInitializedTick pool tick true) := by
  obtain ⟨word, bit, hbit, htick⟩ := exists_position (tick / pool.tickSpacing)
  obtain ⟨hge, hle⟩ := ediv_legal hmin hmax hspacing
  unfold Algebra.nextInitializedTickWithinOneWord nextInitializedTick
  dsimp only
  rw [Algebra.compress_eq hmin hmax hspacing hfits, TickBitmap.compress_eq tick hspacing,
    if_pos rfl, if_pos rfl, Algebra.position_eq (by omega) (by omega),
    toInt_ofInt ⟨by omega, by omega⟩, htick, TickBitmap.position_eq hbit]
  rw [htick] at hge hle
  dsimp only
  rw [uint8_sub bit hbit]
  split
  · rename_i hrow
    have hmost := getMostSignificantBit_lt hrow
    rw [uint8_sub _ hmost, int24_of_fits (x := 256 * word + bit - (255 - _ : ℕ)) (by omega)
      (by omega)]
    rfl
  · rw [int24_of_fits (x := 256 * word + bit - bit) (by omega) (by omega)]
    rfl

theorem Algebra.next_right :
    Algebra.nextInitializedTickWithinOneWord pool tick false =
      Prod.map int24 id (nextInitializedTick pool tick false) := by
  obtain ⟨word, bit, hbit, htick⟩ := exists_position (tick / pool.tickSpacing + 1)
  obtain ⟨hge, hle⟩ := ediv_legal hmin hmax hspacing
  unfold Algebra.nextInitializedTickWithinOneWord nextInitializedTick
  dsimp only
  rw [Algebra.compress_eq hmin hmax hspacing hfits, TickBitmap.compress_eq tick hspacing,
    if_neg Bool.false_ne_true, if_neg Bool.false_ne_true, toInt_ofInt ⟨by omega, by omega⟩,
    int24_of_fits (x := tick / pool.tickSpacing + 1) (by omega) (by omega),
    Algebra.position_eq (by omega) (by omega), htick, TickBitmap.position_eq hbit]
  dsimp only
  split
  · rename_i hrow
    have hleast := getSingleSignificantBit_lt hrow
    rw [int24_of_fits (x := 256 * word + bit + _) (by omega) (by omega)]
    rfl
  · rw [uint8_sub bit hbit,
      int24_of_fits (x := 256 * word + bit + (255 - bit : ℕ)) (by omega) (by omega)]
    rfl

end Searches

end ZeroExApi.TickSearch
