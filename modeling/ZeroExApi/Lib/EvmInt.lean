/-
# ZeroExApi.Lib.EvmInt — 256-bit integers as integers

A signed word is the integer it stands for and an unsigned one the natural number.  Casts and
unchecked arithmetic wrap around; what fits is left alone, which is all that is said here.
-/

import Mathlib.Data.Int.Notation
import Mathlib.Tactic.Ring

namespace ZeroExApi.Lib

/-- The signed word of an integer. -/
def int256 (x : ℤ) : ℤ := x.bmod (2 ^ 256)

/-- The unsigned word of an integer. -/
def uint256 (x : ℤ) : ℕ := (x % 2 ^ 256).toNat

/-- What fits a signed word. -/
def FitsInt256 (x : ℤ) : Prop := -2 ^ 255 ≤ x ∧ x < 2 ^ 255

instance (x : ℤ) : Decidable (FitsInt256 x) := inferInstanceAs (Decidable (_ ∧ _))

theorem int256_of_fits {x : ℤ} (h : FitsInt256 x) : int256 x = x := by
  obtain ⟨hle, hlt⟩ := h
  apply Int.bmod_eq_of_le
  · omega
  · omega

theorem uint256_of_nonneg {x : ℤ} (h : 0 ≤ x) (hlt : x < 2 ^ 256) : (uint256 x : ℤ) = x := by
  unfold uint256
  rw [Int.emod_eq_of_lt h hlt, Int.toNat_of_nonneg h]

theorem uint256_natCast {n : ℕ} (h : n < 2 ^ 256) : uint256 n = n := by
  have hcast := uint256_of_nonneg (Int.natCast_nonneg n) (by omega)
  omega

/-- The signed word of a word. -/
theorem int256_word {n : ℕ} (h : n < 2 ^ 256) :
    int256 n = if n < 2 ^ 255 then (n : ℤ) else n - 2 ^ 256 := by
  split
  · exact int256_of_fits ⟨by omega, by omega⟩
  · unfold int256
    rw [Int.bmod_def, Int.emod_eq_of_lt (by omega) (by omega), if_neg (by omega)]
    omega

/-- The word of what a word is the negative of. -/
def negWord (n : ℕ) : ℕ := uint256 (-int256 n)

theorem negWord_of_pos {n : ℕ} (hpos : 0 < n) (h : n < 2 ^ 256) : negWord n = 2 ^ 256 - n := by
  unfold negWord uint256
  rw [int256_word h]
  split <;> omega

theorem negWord_zero : negWord 0 = 0 := by decide

theorem negWord_lt (n : ℕ) : negWord n < 2 ^ 256 := by
  unfold negWord uint256
  omega

theorem negWord_negWord {n : ℕ} (h : n < 2 ^ 256) : negWord (negWord n) = n := by
  rcases Nat.eq_zero_or_pos n with rfl | hpos
  · rw [negWord_zero, negWord_zero]
  · rw [negWord_of_pos hpos h, negWord_of_pos (by omega) (by omega)]
    omega

theorem int256_int256 (x : ℤ) : int256 (int256 x) = int256 x := Int.bmod_bmod

/-! ## Narrower types -/

/-- The signed integer of a narrower type. -/
def sint (width : ℕ) (x : ℤ) : ℤ := x.bmod (2 ^ width)

theorem sint_of_fits {width : ℕ} {x : ℤ} (hle : -2 ^ width ≤ x) (hlt : x < 2 ^ width) :
    sint (width + 1) x = x := by
  apply Int.bmod_eq_of_le
  · push_cast
    rw [pow_succ]
    omega
  · push_cast
    rw [pow_succ]
    omega

/-- `smod`, with the sign of the dividend. -/
def smod (x y : BitVec 256) : BitVec 256 := if y = 0 then 0 else x.srem y

/-- `slt`. -/
def slt (x y : BitVec 256) : BitVec 256 := if x.slt y then 1 else 0

theorem toInt_ofInt {x : ℤ} (h : FitsInt256 x) : (BitVec.ofInt 256 x).toInt = x := by
  rw [BitVec.toInt_ofInt]
  exact int256_of_fits h

theorem ofInt_ne_zero {x : ℤ} (h : FitsInt256 x) (hne : x ≠ 0) : BitVec.ofInt 256 x ≠ 0 := by
  intro hzero
  have htoInt := toInt_ofInt h
  rw [hzero] at htoInt
  exact hne htoInt.symm

section Words

variable {x y : ℤ} (hx : FitsInt256 x) (hy : FitsInt256 y)

include hx

theorem slt_ofInt_zero : slt (BitVec.ofInt 256 x) 0 = if x < 0 then 1 else 0 := by
  unfold slt
  rw [BitVec.slt_eq_decide, toInt_ofInt hx]
  simp

include hy

theorem smod_ofInt (hpos : 0 < y) :
    smod (BitVec.ofInt 256 x) (BitVec.ofInt 256 y) = BitVec.ofInt 256 (x.tmod y) := by
  unfold smod
  rw [if_neg (ofInt_ne_zero hy hpos.ne')]
  apply BitVec.eq_of_toInt_eq
  have hge := Int.lt_tmod_of_pos x hpos
  have hlt := Int.tmod_lt_of_pos x hpos
  obtain ⟨_, hfits⟩ := hy
  rw [BitVec.toInt_srem, toInt_ofInt hx, toInt_ofInt ⟨by omega, hfits⟩,
    toInt_ofInt ⟨by omega, by omega⟩]

theorem sdiv_ofInt :
    (BitVec.ofInt 256 x).sdiv (BitVec.ofInt 256 y) = BitVec.ofInt 256 (x.tdiv y) := by
  apply BitVec.eq_of_toInt_eq
  rw [BitVec.toInt_sdiv, toInt_ofInt hx, toInt_ofInt hy, BitVec.toInt_ofInt]

end Words

end ZeroExApi.Lib
