/-
# ZeroExApi.Lib.AbiWords — words in bytes

A word is 32 bytes, the most significant first.  What is encoded decodes to itself
(`decodeWords_encodeWords`), and a word that is stored takes the place of the bytes there and leaves
the ones before it (`take_storeWord`).
-/

import Mathlib.Data.Nat.Notation
import Mathlib.Tactic.Ring

namespace ZeroExApi.Lib.AbiWords

/-- The bytes of a number, the most significant first. -/
def toBytes : ℕ → ℕ → List UInt8
  | 0, _ => []
  | width + 1, n => toBytes width (n / 256) ++ [UInt8.ofNat (n % 256)]

/-- The number of some bytes. -/
def ofBytes (bytes : List UInt8) : ℕ := bytes.foldl (fun n byte => n * 256 + byte.toNat) 0

@[simp]
theorem length_toBytes (width n : ℕ) : (toBytes width n).length = width := by
  induction width generalizing n with
  | zero => rfl
  | succ width ih => rw [toBytes, List.length_append, ih, List.length_singleton]

theorem ofBytes_toBytes {width n : ℕ} (h : n < 256 ^ width) : ofBytes (toBytes width n) = n := by
  induction width generalizing n with
  | zero => exact (Nat.lt_one_iff.mp h).symm
  | succ width ih =>
    have hdiv : n / 256 < 256 ^ width := Nat.div_lt_of_lt_mul (by rwa [Nat.pow_succ'] at h)
    have hhigh := ih hdiv
    have hlow : (UInt8.ofNat (n % 256)).toNat = n % 256 :=
      Nat.mod_eq_of_lt (Nat.mod_lt n (by decide))
    unfold ofBytes at hhigh ⊢
    rw [toBytes, List.foldl_append, hhigh, List.foldl_cons, List.foldl_nil, hlow]
    exact Nat.div_add_mod' n 256

/-! ## Words -/

def encodeWord (n : ℕ) : List UInt8 := toBytes 32 n

def encodeWords (ns : List ℕ) : List UInt8 := ns.flatMap encodeWord

/-- So many words from the start. -/
def decodeWords : ℕ → List UInt8 → List ℕ
  | 0, _ => []
  | count + 1, bytes => ofBytes (bytes.take 32) :: decodeWords count (bytes.drop 32)

@[simp]
theorem length_encodeWord (n : ℕ) : (encodeWord n).length = 32 := length_toBytes 32 n

@[simp]
theorem length_encodeWords (ns : List ℕ) : (encodeWords ns).length = 32 * ns.length := by
  induction ns with
  | nil => rfl
  | cons n ns ih =>
    rw [encodeWords, List.flatMap_cons, List.length_append, length_encodeWord, ← encodeWords, ih,
      List.length_cons]
    ring

theorem ofBytes_encodeWord {n : ℕ} (h : n < 2 ^ 256) : ofBytes (encodeWord n) = n :=
  ofBytes_toBytes (by
    have hpow : 256 ^ 32 = 2 ^ 256 := by decide
    omega)

@[simp]
theorem length_decodeWords (count : ℕ) (bytes : List UInt8) :
    (decodeWords count bytes).length = count := by
  induction count generalizing bytes with
  | zero => rfl
  | succ count ih => rw [decodeWords, List.length_cons, ih]

theorem decodeWords_encodeWords {ns : List ℕ} (h : ∀ n ∈ ns, n < 2 ^ 256) (rest : List UInt8) :
    decodeWords ns.length (encodeWords ns ++ rest) = ns := by
  induction ns with
  | nil => rfl
  | cons n ns ih =>
    rw [List.forall_mem_cons] at h
    rw [encodeWords, List.flatMap_cons, ← encodeWords, List.append_assoc, List.length_cons,
      decodeWords, List.take_left' (length_encodeWord n), List.drop_left' (length_encodeWord n),
      ih h.2, ofBytes_encodeWord h.1]

/-! ## Stores -/

/-- A word stored in the place of the bytes at an offset. -/
def storeWord (bytes : List UInt8) (offset word : ℕ) : List UInt8 :=
  bytes.take offset ++ encodeWord word ++ bytes.drop (offset + 32)

theorem length_storeWord {bytes : List UInt8} {offset : ℕ} (h : offset + 32 ≤ bytes.length)
    (word : ℕ) : (storeWord bytes offset word).length = bytes.length := by
  unfold storeWord
  rw [List.length_append, List.length_append, List.length_take, List.length_drop,
    length_encodeWord]
  omega

/-- The bytes up to the end of a word that is stored. -/
theorem take_storeWord {bytes : List UInt8} {offset : ℕ} (h : offset + 32 ≤ bytes.length)
    (word : ℕ) :
    (storeWord bytes offset word).take (offset + 32) = bytes.take offset ++ encodeWord word := by
  unfold storeWord
  apply List.take_left'
  rw [List.length_append, List.length_take, length_encodeWord]
  omega

end ZeroExApi.Lib.AbiWords
