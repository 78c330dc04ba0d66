/-
# ZeroExApi.Lib.Interpolation — linear interpolation between points, and concave curves

A curve is a list of points from left to right; between two points it is the chord.  The chords of a
concave curve do not get steeper, so that the first chord, drawn on, is above all of it
(`interpolate_le_chord`).  Where the curve starts at the origin, what it gives for an amount is no
better than the rate of any point it has passed (`interpolate_le_rate`).
-/

import Mathlib.Algebra.Order.Field.Basic
import Mathlib.Data.List.Basic
import Mathlib.Tactic.FieldSimp
import Mathlib.Tactic.Linarith
import Mathlib.Tactic.Positivity
import Mathlib.Tactic.Ring

namespace ZeroExApi.Lib.Interpolation

variable {K : Type*} [Field K] [LinearOrder K]

/-- The slope of a chord. -/
def slope (p q : K × K) : K := (q.2 - p.2) / (q.1 - p.1)

/-- The curve from a point over some others, constant behind the last one. -/
def interpolate (p : K × K) : List (K × K) → K → K
  | [], _ => p.2
  | q :: rest, x => if x ≤ q.1 then p.2 + (x - p.1) * slope p q else interpolate q rest x

/-- A curve that goes to the right, does not fall, and does not get steeper. -/
def Concave : List (K × K) → Prop
  | p :: q :: rest =>
    p.1 < q.1 ∧ p.2 ≤ q.2 ∧ (∀ r ∈ rest.head?, slope q r ≤ slope p q) ∧ Concave (q :: rest)
  | _ => True

variable {p q : K × K} {rest : List (K × K)} {x : K}

/-- The points of a concave curve are to the right of the first. -/
theorem le_of_mem (h : Concave (p :: rest)) : ∀ r ∈ p :: rest, p.1 ≤ r.1 := by
  induction rest generalizing p with
  | nil =>
    intro r hr
    rw [List.mem_singleton.mp hr]
  | cons q rest ih =>
    obtain ⟨hlt, _, _, hrest⟩ := h
    intro r hr
    rcases List.mem_cons.mp hr with rfl | hr
    · exact le_rfl
    · exact hlt.le.trans (ih hrest r hr)

variable [IsStrictOrderedRing K]

theorem chord_right (h : p.1 < q.1) : p.2 + (q.1 - p.1) * slope p q = q.2 := by
  unfold slope
  rw [mul_div_cancel₀ _ (sub_pos.mpr h).ne', add_sub_cancel]

theorem slope_nonneg (h : p.1 < q.1) (hle : p.2 ≤ q.2) : 0 ≤ slope p q :=
  div_nonneg (sub_nonneg.mpr hle) (sub_pos.mpr h).le

/-- At a point the curve is that point. -/
theorem interpolate_at (h : p.1 < q.1) : interpolate p (q :: rest) q.1 = q.2 := by
  unfold interpolate
  rw [if_pos le_rfl, chord_right h]

/-- From a point on, the curve is the curve from that point. -/
theorem interpolate_behind (h : Concave (p :: q :: rest)) (hx : q.1 ≤ x) :
    interpolate p (q :: rest) x = interpolate q rest x := by
  obtain ⟨hlt, _, _, hrest⟩ := h
  rcases hx.lt_or_eq with hbehind | rfl
  · rw [interpolate, if_neg (not_le.mpr hbehind)]
  · rw [interpolate_at hlt]
    cases rest with
    | nil => rfl
    | cons r rest => rw [interpolate, if_pos hrest.1.le, sub_self, zero_mul, add_zero]

/-- A concave curve is below its first chord. -/
theorem interpolate_le_chord (h : Concave (p :: q :: rest)) (hx : p.1 ≤ x) :
    interpolate p (q :: rest) x ≤ p.2 + (x - p.1) * slope p q := by
  induction rest generalizing p q with
  | nil =>
    obtain ⟨hlt, hle, _, _⟩ := h
    unfold interpolate
    split
    · exact le_rfl
    · rename_i hgt
      -- the curve stays where the chord goes on
      have hmore : (q.1 - p.1) * slope p q ≤ (x - p.1) * slope p q :=
        mul_le_mul_of_nonneg_right (by linarith) (slope_nonneg hlt hle)
      have hright := chord_right hlt
      unfold interpolate
      linarith
  | cons r rest ih =>
    obtain ⟨hlt, hle, hsteep, hrest⟩ := h
    unfold interpolate
    split
    · exact le_rfl
    · rename_i hgt
      have hnext := ih hrest (le_of_lt (not_le.mp hgt))
      have hslope : (x - q.1) * slope q r ≤ (x - q.1) * slope p q :=
        mul_le_mul_of_nonneg_left (hsteep r rfl) (by linarith)
      have hright := chord_right hlt
      calc interpolate q (r :: rest) x ≤ q.2 + (x - q.1) * slope q r := hnext
        _ ≤ q.2 + (x - q.1) * slope p q := by linarith
        _ = p.2 + (x - p.1) * slope p q := by rw [← hright]; ring

/-- From a point on where the curve is not steeper than the rate of the point, it is no better than
the rate of any point it has passed. -/
theorem interpolate_le_rate_from (h : Concave (p :: rest)) (hp : 0 < p.1) (hp₂ : 0 ≤ p.2)
    (hsteep : ∀ q ∈ rest.head?, slope p q ≤ p.2 / p.1) (hx : p.1 ≤ x) :
    ∀ r ∈ p :: rest, r.1 ≤ x → interpolate p rest x ≤ r.2 / r.1 * x := by
  induction rest generalizing p with
  | nil =>
    intro r hr _
    rw [List.mem_singleton.mp hr]
    unfold interpolate
    calc p.2 = p.2 / p.1 * p.1 := (div_mul_cancel₀ _ hp.ne').symm
      _ ≤ p.2 / p.1 * x := mul_le_mul_of_nonneg_left hx (div_nonneg hp₂ hp.le)
  | cons q rest ih =>
    have hchord := interpolate_le_chord h hx
    obtain ⟨hlt, hle, hnext, hrest⟩ := h
    have hslope := hsteep q rfl
    have hq : 0 < q.1 := hp.trans hlt
    intro r hr hrx
    rcases List.mem_cons.mp hr with rfl | hr
    · -- the chord is below the line of the rate
      calc interpolate r (q :: rest) x ≤ r.2 + (x - r.1) * slope r q := hchord
        _ ≤ r.2 + (x - r.1) * (r.2 / r.1) := by
            have hmul := mul_le_mul_of_nonneg_left hslope (sub_nonneg.mpr hx)
            linarith
        _ = r.2 / r.1 * x := by field_simp; ring
    · have hqx : q.1 ≤ x := (le_of_mem hrest r hr).trans hrx
      -- the rate of the next point is between the rate of the point and the slope to it
      have hrate : slope p q ≤ q.2 / q.1 := by
        have hright := chord_right hlt
        rw [le_div_iff₀ hp] at hslope
        rw [le_div_iff₀ hq]
        linarith
      have hafter := ih hrest hq (hp₂.trans hle)
        (fun t ht => (hnext t ht).trans hrate) hqx r hr hrx
      rw [interpolate_behind ⟨hlt, hle, hnext, hrest⟩ hqx]
      exact hafter

/-- What a concave curve from the origin gives for an amount is no better than the rate of any point
that is not above the amount. -/
theorem interpolate_le_rate {points : List (K × K)} (h : Concave ((0, 0) :: points)) :
    ∀ r ∈ points, r.1 ≤ x → interpolate (0, 0) points x ≤ r.2 / r.1 * x := by
  intro r hr hrx
  cases points with
  | nil => exact absurd hr List.not_mem_nil
  | cons q rest =>
    obtain ⟨hlt, hle, hnext, hrest⟩ := h
    have hqx : q.1 ≤ x := (le_of_mem hrest r hr).trans hrx
    have hrate : slope (0, 0) q = q.2 / q.1 := by
      unfold slope
      rw [sub_zero, sub_zero]
    have hafter := interpolate_le_rate_from hrest hlt hle
      (fun t ht => hrate ▸ hnext t ht) hqx r hr hrx
    rw [interpolate_behind ⟨hlt, hle, hnext, hrest⟩ hqx]
    exact hafter

end ZeroExApi.Lib.Interpolation
