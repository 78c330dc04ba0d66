/-
# ZeroExApi.Lib.JsString — strings as lists of characters: search and hexadecimal numerals

`indexOf` finds the first place where a needle stands.  A needle none of whose proper suffixes is a
prefix of it (`Unbordered`) cannot begin before the place where it was appended and end after it, so
in `base ++ needle ++ rest` it is found where it first stands in `base`, and where `base` ends if it
does not (`indexOf_append`).

A hexadecimal numeral is the list of its digits, and reading and printing are inverse up to leading
zeros (`toHex_parseHex`).
-/

import Mathlib

namespace ZeroExApi.Lib.JsString

universe u

/-! ## Search -/

section Search

variable {α : Type u} [DecidableEq α]

/-- `indexOf`, where the needle is found. -/
def indexOf (needle : List α) : List α → Option ℕ
  | [] => if needle = [] then some 0 else none
  | x :: xs => if needle <+: x :: xs then some 0 else (indexOf needle xs).map (· + 1)

theorem indexOf_of_prefix {needle xs : List α} (h : needle <+: xs) :
    indexOf needle xs = some 0 := by
  cases xs with
  | nil =>
    unfold indexOf
    rw [if_pos (List.prefix_nil.mp h)]
  | cons x xs =>
    unfold indexOf
    rw [if_pos h]

/-- Where the needle is found it stands whole. -/
theorem prefix_drop_of_indexOf {needle xs : List α} {p : ℕ} (h : indexOf needle xs = some p) :
    needle <+: xs.drop p := by
  induction xs generalizing p with
  | nil =>
    unfold indexOf at h
    split at h
    · rename_i hnil
      rw [hnil]
      exact List.nil_prefix
    · cases h
  | cons x xs ih =>
    unfold indexOf at h
    split at h
    · rename_i hstands
      cases h
      exact hstands
    · obtain ⟨q, hq, rfl⟩ := Option.map_eq_some_iff.mp h
      exact ih hq

theorem add_length_le_of_indexOf {needle xs : List α} {p : ℕ} (hne : needle ≠ [])
    (h : indexOf needle xs = some p) : p + needle.length ≤ xs.length := by
  have hle := (prefix_drop_of_indexOf h).length_le
  have hpos := List.length_pos_iff.mpr hne
  rw [List.length_drop] at hle
  omega

/-- The needle is found nowhere exactly when it is no part of the string. -/
theorem indexOf_eq_none_iff {needle xs : List α} : indexOf needle xs = none ↔ ¬ needle <:+: xs := by
  induction xs with
  | nil =>
    unfold indexOf
    rw [List.infix_nil]
    split
    · rename_i hnil
      simp [hnil]
    · rename_i hnil
      simp [hnil]
  | cons x xs ih =>
    unfold indexOf
    rw [List.infix_cons_iff]
    split
    · rename_i hstands
      simp [hstands]
    · rename_i hstands
      simp [hstands, ih]

/-- No proper suffix of the needle is a prefix of it. -/
def Unbordered (needle : List α) : Prop :=
  ∀ k, 0 < k → k < needle.length → ¬ needle.drop k <+: needle

instance (needle : List α) : Decidable (Unbordered needle) :=
  decidable_of_iff (∀ k < needle.length, 0 < k → ¬ needle.drop k <+: needle)
    ⟨fun h k hpos hlt => h k hlt hpos, fun h k hlt hpos => h k hpos hlt⟩

omit [DecidableEq α] in
/-- Before an unbordered needle there is only what was there before it was appended. -/
theorem prefix_append_iff {needle : List α} (h : Unbordered needle) {base : List α}
    (hne : base ≠ []) (rest : List α) :
    needle <+: base ++ (needle ++ rest) ↔ needle <+: base := by
  constructor
  · intro hstands
    rcases List.prefix_or_prefix_of_prefix hstands (List.prefix_append base _) with hle | hge
    · exact hle
    · -- the needle would begin in the base and go on into itself
      obtain ⟨tail, htail⟩ := hge
      cases tail with
      | nil =>
        rw [List.append_nil] at htail
        rw [htail]
      | cons x xs =>
        have hlen : base.length < needle.length := by
          rw [← htail, List.length_append, List.length_cons]
          omega
        have hdrop : needle.drop base.length = x :: xs := by
          rw [← htail, List.drop_left]
        have hsuffix : x :: xs <+: needle ++ rest := by
          rw [← htail, List.prefix_append_right_inj] at hstands
          rw [← htail]
          exact hstands
        have hborder : x :: xs <+: needle := by
          refine List.prefix_of_prefix_length_le hsuffix (List.prefix_append needle rest) ?_
          rw [← hdrop, List.length_drop]
          omega
        exact absurd (hdrop ▸ hborder) (h _ (List.length_pos_iff.mpr hne) hlen)
  · intro hstands
    exact hstands.trans (List.prefix_append _ _)

/-- An appended unbordered needle is found where it stands in the base, or else where that ends. -/
theorem indexOf_append {needle : List α} (h : Unbordered needle) (base rest : List α) :
    indexOf needle (base ++ (needle ++ rest))
      = some ((indexOf needle base).getD base.length) := by
  induction base with
  | nil =>
    have hzero : (indexOf needle []).getD ([] : List α).length = 0 := by
      unfold indexOf
      split <;> rfl
    rw [hzero]
    exact indexOf_of_prefix (List.prefix_append needle rest)
  | cons x xs ih =>
    show (if needle <+: x :: (xs ++ (needle ++ rest)) then some 0
        else (indexOf needle (xs ++ (needle ++ rest))).map (· + 1))
      = some ((if needle <+: x :: xs then some 0
          else (indexOf needle xs).map (· + 1)).getD (x :: xs).length)
    have hiff := prefix_append_iff h (List.cons_ne_nil x xs) rest
    rw [List.cons_append] at hiff
    rw [ih]
    by_cases hstands : needle <+: x :: xs
    · rw [if_pos hstands, if_pos (hiff.mpr hstands)]
      rfl
    · rw [if_neg hstands, if_neg fun hlong => hstands (hiff.mp hlong)]
      cases indexOf needle xs <;> rfl

end Search

/-! ## Hexadecimal numerals -/

/-- The digits in order. -/
def hexAlphabet : List Char := "0123456789abcdef".toList

/-- The character of a digit. -/
def hexChar (d : ℕ) : Char := hexAlphabet.getD d '0'

/-- The digit of a character; zero for one that is none. -/
def hexValue (c : Char) : ℕ := hexAlphabet.findIdx (· == c) % 16

theorem hexValue_hexChar {d : ℕ} (h : d < 16) : hexValue (hexChar d) = d := by
  have hall : ∀ d < 16, hexValue (hexChar d) = d := by decide
  exact hall d h

theorem hexChar_ne_zero {d : ℕ} (hpos : 0 < d) (h : d < 16) : hexChar d ≠ '0' := by
  have hall : ∀ d < 16, 0 < d → hexChar d ≠ '0' := by decide
  exact hall d h hpos

theorem hexChar_ne_dash {d : ℕ} (h : d < 16) : hexChar d ≠ '-' := by
  have hall : ∀ d < 16, hexChar d ≠ '-' := by decide
  exact hall d h

/-- `toString(16)`. -/
def toHex (n : ℕ) : List Char :=
  if n = 0 then ['0'] else (Nat.digits 16 n).reverse.map hexChar

/-- The number a numeral denotes. -/
def parseHex (s : List Char) : ℕ := Nat.ofDigits 16 (s.map hexValue).reverse

/-- Printing a number between two powers of the base takes as many digits. -/
theorem length_toHex {n k : ℕ} (hlow : 16 ^ k ≤ n) (hhigh : n < 16 ^ (k + 1)) :
    (toHex n).length = k + 1 := by
  have hpos : n ≠ 0 := by
    rintro rfl
    exact absurd hlow (not_le.mpr (pow_pos (by decide) k))
  unfold toHex
  rw [if_neg hpos, List.length_map, List.length_reverse, Nat.length_digits 16 n (by decide) hpos]
  rw [Nat.log_eq_of_pow_le_of_lt_pow hlow hhigh]

/-- One digit. -/
theorem toHex_digit {d : ℕ} (hpos : 0 < d) (h : d < 16) : toHex d = [hexChar d] := by
  unfold toHex
  rw [if_neg hpos.ne', Nat.digits_of_lt 16 d hpos.ne' h]
  rfl

/-- A number prints as a list of digits. -/
theorem exists_digits_of_toHex (n : ℕ) :
    ∃ ds : List ℕ, toHex n = ds.map hexChar ∧ ∀ d ∈ ds, d < 16 := by
  unfold toHex
  split
  · refine ⟨[0], rfl, ?_⟩
    intro d hd
    rw [List.mem_singleton.mp hd]
    decide
  · refine ⟨(Nat.digits 16 n).reverse, rfl, ?_⟩
    intro d hd
    exact Nat.digits_lt_base (by decide) (List.mem_reverse.mp hd)

/-- A numeral without a leading zero is what its number prints as. -/
theorem toHex_ofDigits {d : ℕ} {ds : List ℕ} (hpos : 0 < d) (hlt : ∀ e ∈ d :: ds, e < 16) :
    toHex (Nat.ofDigits 16 (d :: ds).reverse) = (d :: ds).map hexChar := by
  have hdigits : Nat.digits 16 (Nat.ofDigits 16 (d :: ds).reverse) = (d :: ds).reverse := by
    apply Nat.digits_ofDigits 16 (by decide)
    · intro e he
      exact hlt e (List.mem_reverse.mp he)
    · intro hne
      rw [List.getLast_reverse]
      exact hpos.ne'
  have hne : Nat.ofDigits 16 (d :: ds).reverse ≠ 0 := by
    intro hzero
    rw [hzero, Nat.digits_zero] at hdigits
    exact List.cons_ne_nil d ds (List.reverse_eq_nil_iff.mp hdigits.symm)
  unfold toHex
  rw [if_neg hne, hdigits, List.reverse_reverse]

/-- Reading the numeral of digits. -/
theorem parseHex_map_hexChar {ds : List ℕ} (hlt : ∀ e ∈ ds, e < 16) :
    parseHex (ds.map hexChar) = Nat.ofDigits 16 ds.reverse := by
  unfold parseHex
  rw [List.map_map]
  congr 2
  calc ds.map (hexValue ∘ hexChar) = ds.map id :=
        List.map_congr_left fun e he => hexValue_hexChar (hlt e he)
    _ = ds := List.map_id ds

theorem parseHex_lt {ds : List ℕ} (hlt : ∀ e ∈ ds, e < 16) :
    parseHex (ds.map hexChar) < 16 ^ ds.length := by
  rw [parseHex_map_hexChar hlt, ← List.length_reverse]
  apply Nat.ofDigits_lt_base_pow_length (by decide)
  intro e he
  exact hlt e (List.mem_reverse.mp he)

/-- Reading a numeral without a leading zero and printing it gives it back. -/
theorem toHex_parseHex {d : ℕ} {ds : List ℕ} (hpos : 0 < d) (hlt : ∀ e ∈ d :: ds, e < 16) :
    toHex (parseHex ((d :: ds).map hexChar)) = (d :: ds).map hexChar := by
  rw [parseHex_map_hexChar hlt, toHex_ofDigits hpos hlt]

/-! ## Lower case -/

/-- What is in lower case stays as it is. -/
theorem toLower_toLower (s : String) : s.toLower.toLower = s.toLower := by
  show (s.map Char.toLower).map Char.toLower = s.map Char.toLower
  rw [← String.toList_inj]
  simp

/-- No other character is a dash in lower case. -/
theorem char_toLower_ne_dash {c : Char} (h : c ≠ '-') : c.toLower ≠ '-' := by
  unfold Char.toLower
  split
  · rename_i hupper
    intro heq
    -- a capital letter is lowered by 32, to a code above that of the dash
    have hnat : (c.val + 32).toNat = 45 := congrArg (fun d : Char => d.val.toNat) heq
    have hle : 65 ≤ c.val.toNat := UInt32.le_iff_toNat_le.mp hupper.1
    have hle' : c.val.toNat ≤ 90 := UInt32.le_iff_toNat_le.mp hupper.2
    have hadd : (c.val + 32).toNat = c.val.toNat + 32 :=
      (UInt32.toNat_add c.val 32).trans (Nat.mod_eq_of_lt (show c.val.toNat + 32 < 2 ^ 32 by omega))
    omega
  · exact h

theorem dash_notMem_toLower {s : String} (h : '-' ∉ s.toList) : '-' ∉ s.toLower.toList := by
  show '-' ∉ (s.map Char.toLower).toList
  rw [String.toList_map]
  intro hmem
  obtain ⟨c, hc, heq⟩ := List.mem_map.mp hmem
  have hne : c ≠ '-' := by
    rintro rfl
    exact h hc
  exact char_toLower_ne_dash hne heq

end ZeroExApi.Lib.JsString
