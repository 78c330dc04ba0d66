/-
# ZeroExApi.Lib.Decimal — decimal numerals: how numbers are printed, and how they are read back

`BigNumber.toString` prints every digit, with no exponent at any size; `BigNumber.ofString` reads a
numeral with an optional sign, decimal point and exponent, and `parseInt` the digits a string
begins with.  On naturals of any size reading undoes printing (`ofString_toString_natCast`,
`parseInt_natString`), and a printed natural is made of digits only.
-/

import Mathlib.Data.List.TakeWhile
import ZeroExApi.Lib.BigNumber

namespace ZeroExApi.Lib

namespace Decimal

/-! ## Digits -/

/-- The number that digits spell: there is one at least, and nothing but digits. -/
def natOfDigits (cs : List Char) : Option ℕ :=
  if cs ≠ [] ∧ cs.all Char.isDigit then some (Nat.ofDigitChars 10 cs 0) else none

theorem all_isDigit_toDigits (n : ℕ) : (Nat.toDigits 10 n).all Char.isDigit = true := by
  apply List.all_eq_true.mpr
  intro c hc
  exact Nat.isDigit_of_mem_toDigits (by decide) (by decide) hc

/-- A mark that is no digit does not stand among the digits of a number. -/
theorem notMem_toDigits {c : Char} (hc : c.isDigit = false) (n : ℕ) : c ∉ Nat.toDigits 10 n := by
  intro hmem
  have hdigit := List.all_eq_true.mp (all_isDigit_toDigits n) c hmem
  simp [hc] at hdigit

@[simp]
theorem natOfDigits_toDigits (n : ℕ) : natOfDigits (Nat.toDigits 10 n) = some n := by
  simp [natOfDigits, all_isDigit_toDigits, Nat.toDigits_ne_nil]

/-- A scan for a mark that is no digit passes over the digits of a number. -/
theorem scan_toDigits {stop : Char → Bool} (hstop : ∀ c, c.isDigit = true → stop c = false)
    (n : ℕ) :
    (Nat.toDigits 10 n).takeWhile (fun c => !stop c) = Nat.toDigits 10 n ∧
      (Nat.toDigits 10 n).dropWhile (fun c => !stop c) = [] := by
  have hpass : ∀ c ∈ Nat.toDigits 10 n, (!stop c) = true := by
    intro c hc
    have hdigit := List.all_eq_true.mp (all_isDigit_toDigits n) c hc
    simp [hstop c hdigit]
  refine ⟨List.takeWhile_eq_self_iff.mpr hpass, ?_⟩
  exact List.dropWhile_eq_nil_iff.mpr hpass

/-! ## Numerals -/

/-- Digits with at most one decimal point between them. -/
def mantissa (cs : List Char) : Option ℚ :=
  let whole := cs.takeWhile fun c => !(c == '.')
  match cs.dropWhile fun c => !(c == '.') with
  | [] => (natOfDigits whole).map fun n => (n : ℚ)
  | _ :: fraction =>
    (natOfDigits (whole ++ fraction)).map fun n => (n : ℚ) / 10 ^ fraction.length

/-- The exponent after its mark. -/
def exponent : List Char → Option ℤ
  | '-' :: cs => (natOfDigits cs).map fun n => -(n : ℤ)
  | '+' :: cs => (natOfDigits cs).map fun n => (n : ℤ)
  | cs => (natOfDigits cs).map fun n => (n : ℤ)

def isExponentMark (c : Char) : Bool := c == 'e' || c == 'E'

/-- A numeral without a sign. -/
def numeral (cs : List Char) : Option ℚ :=
  match cs.dropWhile fun c => !isExponentMark c with
  | [] => mantissa cs
  | _ :: power => do
    let value ← mantissa (cs.takeWhile fun c => !isExponentMark c)
    let places ← exponent power
    some (value * 10 ^ places)

theorem mantissa_toDigits (n : ℕ) : mantissa (Nat.toDigits 10 n) = some (n : ℚ) := by
  have hpoint : ∀ c : Char, c.isDigit = true → (c == '.') = false := by
    intro c hc
    apply beq_false_of_ne
    rintro rfl
    cases hc
  obtain ⟨htake, hdrop⟩ := scan_toDigits hpoint n
  simp [mantissa, htake, hdrop]

theorem numeral_toDigits (n : ℕ) : numeral (Nat.toDigits 10 n) = some (n : ℚ) := by
  have hmark : ∀ c : Char, c.isDigit = true → isExponentMark c = false := by
    intro c hc
    simp only [isExponentMark, Bool.or_eq_false_iff]
    constructor
    · apply beq_false_of_ne
      rintro rfl
      cases hc
    · apply beq_false_of_ne
      rintro rfl
      cases hc
  obtain ⟨_, hdrop⟩ := scan_toDigits hmark n
  simp [numeral, hdrop, mantissa_toDigits]

/-! ## Printing -/

/-- The decimal places of a fraction with this denominator.  A value without a finite expansion is
none that the library prints; it would be cut off. -/
def places (den : ℕ) : ℕ :=
  ((List.range (den.log2 + 1)).find? fun k => 10 ^ k % den == 0).getD den.log2

@[simp]
theorem places_one : places 1 = 0 := by decide

/-- The digits of a number that is not negative. -/
def digits (q : ℚ) : List Char :=
  let k := places q.den
  let ds := Nat.toDigits 10 (q.num.toNat * 10 ^ k / q.den)
  if k = 0 then ds
  else
    let padded := List.replicate (k + 1 - ds.length) '0' ++ ds
    padded.take (padded.length - k) ++ '.' :: padded.drop (padded.length - k)

theorem digits_natCast (n : ℕ) : digits (n : ℚ) = Nat.toDigits 10 n := by
  simp [digits]

/-- A natural number as the language prints it below `10 ^ 21`, with all its digits. -/
def natString (n : ℕ) : String := String.ofList (Nat.toDigits 10 n)

@[simp]
theorem toList_natString (n : ℕ) : (natString n).toList = Nat.toDigits 10 n :=
  String.toList_ofList

/-! ## `parseInt` -/

/-- `parseInt(str, 10)`, `none` where that is `NaN`: the digits the string begins with.  A blank or
a sign in front of them is not read, as only naturals are stored. -/
def parseInt (s : String) : Option ℕ := natOfDigits (s.toList.takeWhile Char.isDigit)

@[simp]
theorem parseInt_natString (n : ℕ) : parseInt (natString n) = some n := by
  have hall : (Nat.toDigits 10 n).takeWhile Char.isDigit = Nat.toDigits 10 n := by
    apply List.takeWhile_eq_self_iff.mpr
    exact List.all_eq_true.mp (all_isDigit_toDigits n)
  simp [parseInt, hall]

end Decimal

namespace BigNumber

open Decimal

/-! ## Printing and reading a number -/

/-- `toString`, with all digits. -/
def toString : BigNumber → String
  | nan => "NaN"
  | inf false => "Infinity"
  | inf true => "-Infinity"
  | fin q => String.ofList (if q < 0 then '-' :: digits (-q) else digits q)

/-- What stands after the sign of a number. -/
def unsigned (cs : List Char) : BigNumber :=
  if cs = "Infinity".toList then inf false
  else
    match numeral cs with
    | some q => fin q
    | none => nan

/-- `new BigNumber(str)`.  Blanks and plus signs in front and the prefixes of other bases are not
read. -/
def ofString (s : String) : BigNumber :=
  match s.toList with
  | '-' :: cs => (unsigned cs).neg
  | cs => unsigned cs

theorem toString_natCast (n : ℕ) : (fin (n : ℚ)).toString = natString n := by
  have hnonneg : ¬ ((n : ℚ) < 0) := not_lt.mpr n.cast_nonneg
  simp [toString, natString, hnonneg, digits_natCast]

/-- Reading gives back a natural from its digits. -/
@[simp]
theorem ofString_toString_natCast (n : ℕ) : ofString (fin (n : ℚ)).toString = fin n := by
  rw [toString_natCast]
  -- a natural is printed without a sign and is not the word for infinity
  have hsign : ∀ cs, Nat.toDigits 10 n ≠ '-' :: cs := by
    intro cs heq
    have hdash : '-' ∉ Nat.toDigits 10 n := notMem_toDigits (by decide) n
    rw [heq] at hdash
    exact hdash List.mem_cons_self
  have hword : Nat.toDigits 10 n ≠ "Infinity".toList := by
    intro heq
    have hletter : 'I' ∉ Nat.toDigits 10 n := notMem_toDigits (by decide) n
    rw [heq] at hletter
    exact hletter (by decide)
  have hread : unsigned (Nat.toDigits 10 n) = fin n := by
    rw [unsigned, if_neg hword, numeral_toDigits]
  unfold ofString
  split
  · rename_i cs hcs
    rw [toList_natString] at hcs
    exact absurd hcs (hsign cs)
  · rw [toList_natString]
    exact hread

example : ofString (fin (-1203 / 100)).toString = fin (-1203 / 100) := by decide +kernel

end BigNumber

end ZeroExApi.Lib
