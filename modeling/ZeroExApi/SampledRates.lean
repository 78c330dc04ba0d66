/-
# ZeroExApi.SampledRates — what a path promises of a source, against what was sampled of it

The router fills a source with an amount between its samples.  The samples of a source are points of
a curve from the origin; where the router answers with no more than the curve, neither does the fill
made of the answer, but for its rounding to the nearest unit (`fill_le_curve`).  Where the curve is
concave, its rate at an amount is that of the last sample before the amount at best.
-/

import ZeroExApi.RoutedPath
import ZeroExApi.Lib.Interpolation

namespace ZeroExApi.SampledRates

open ZeroExApi.Lib ZeroExApi.Lib.BigNumber ZeroExApi.Lib.Interpolation ZeroExApi.PathOptimizer
open ZeroExApi.RoutedPath

/-! ## The curve of a source -/

/-- A sample as a point. -/
def point (sample : DexSample) : ℚ × ℚ := (sample.input.toRat, sample.output.toRat)

/-- The linear interpolation of the samples, and of zero and the first sample before that. -/
def curve (samples : List DexSample) (x : ℚ) : ℚ := interpolate (0, 0) (samples.map point) x

/-- Samples of finite amounts, from small to large inputs. -/
structure Sampled (samples : List DexSample) : Prop where
  input_eq : ∀ s ∈ samples, s.input = .fin s.input.toRat
  output_eq : ∀ s ∈ samples, s.output = .fin s.output.toRat
  input_pos : ∀ s ∈ samples, 0 < s.input.toRat
  increasing : samples.Pairwise fun s t => s.input.toRat < t.input.toRat

theorem Sampled.tail {s : DexSample} {rest : List DexSample} (h : Sampled (s :: rest)) :
    Sampled rest where
  input_eq t ht := h.input_eq t (List.mem_cons_of_mem _ ht)
  output_eq t ht := h.output_eq t (List.mem_cons_of_mem _ ht)
  input_pos t ht := h.input_pos t (List.mem_cons_of_mem _ ht)
  increasing := (List.pairwise_cons.mp h.increasing).2

/-- Between two samples the fill is made of what the router answered. -/
theorem closestSample_output {x : ℚ} {output : BigNumber} {s last : DexSample}
    {rest : List DexSample} (h : Sampled (s :: rest)) (hs : s.input.toRat < x)
    (hlast : last ∈ s :: rest) (hx : x ≤ last.input.toRat) :
    (closestSample (.fin x) output s rest).output = output.integerValue .halfUp := by
  induction rest generalizing s with
  | nil =>
    rw [List.mem_singleton.mp hlast] at hx
    linarith
  | cons t rest ih =>
    have hlast' : last ∈ t :: rest := by
      rcases List.mem_cons.mp hlast with rfl | hmem
      · linarith
      · exact hmem
    unfold closestSample
    split
    · -- some sample behind is below the amount, and so is the next one
      rename_i hany
      obtain ⟨r, hr, hbelow⟩ := List.any_eq_true.mp hany
      rw [h.tail.input_eq r hr, gt_fin, decide_eq_true_iff] at hbelow
      apply ih h.tail _ hlast'
      rcases List.mem_cons.mp hr with rfl | hr
      · exact hbelow
      · exact ((List.pairwise_cons.mp h.tail.increasing).1 r hr).trans hbelow
    · rw [h.input_eq s List.mem_cons_self, gt_fin, decide_eq_true hs, if_pos rfl]

/-- At the first sample the fill is made of it. -/
theorem closestSample_first {output : BigNumber} {s : DexSample} {rest : List DexSample}
    (h : Sampled (s :: rest)) :
    closestSample (.fin s.input.toRat) output s rest = s := by
  cases rest with
  | nil => rfl
  | cons t rest =>
    have hbehind : ∀ r ∈ t :: rest, BigNumber.gt (.fin s.input.toRat) r.input = false := by
      intro r hr
      rw [h.tail.input_eq r hr, gt_fin, decide_eq_false_iff_not, not_lt]
      exact ((List.pairwise_cons.mp h.increasing).1 r hr).le
    have hself : BigNumber.gt (.fin s.input.toRat) s.input = false := by
      obtain ⟨a, ha⟩ : ∃ a, s.input = .fin a := ⟨_, h.input_eq s List.mem_cons_self⟩
      simp [ha]
    unfold closestSample
    rw [List.any_eq_false.mpr fun r hr => by rw [hbehind r hr]; exact Bool.false_ne_true,
      if_neg Bool.false_ne_true, hself, if_neg Bool.false_ne_true]

/-! ## The fill of a source -/

/-- What the fill of a source promises at an amount: its output is no more than the curve gives,
rounded, and no more than the amount brings at the rate of any sample before it, where the curve is
concave; or it is one unit. -/
structure PromiseAt (samples : List DexSample) (x out : ℚ) : Prop where
  le_curve : out ≤ max 1 (roundRat .halfUp (curve samples x) : ℚ)
  le_rate : Concave ((0, 0) :: samples.map point) → ∀ s ∈ samples, s.input.toRat ≤ x →
    out ≤ max 1 (roundRat .halfUp (s.output.toRat / s.input.toRat * x) : ℚ)

/-- What is bounded by the curve is bounded by the rates. -/
theorem promiseAt_of_le_curve {samples : List DexSample} {x out : ℚ}
    (h : out ≤ max 1 (roundRat .halfUp (curve samples x) : ℚ)) : PromiseAt samples x out := by
  refine ⟨h, fun hconcave s hs hsx => h.trans (max_le_max le_rfl ?_)⟩
  apply Int.cast_le.mpr (roundRat_mono .halfUp _)
  exact interpolate_le_rate hconcave (point s) (List.mem_map_of_mem hs) hsx

/-- The curve goes through the first sample. -/
theorem curve_first {s : DexSample} {rest : List DexSample} (h : Sampled (s :: rest)) :
    curve (s :: rest) s.input.toRat = s.output.toRat :=
  interpolate_at (p := (0, 0)) (q := point s) (h.input_pos s List.mem_cons_self)

/-- The fill of a source that was answered with no more than the curve. -/
theorem fill_le_curve (o : PathOptimizer) {scalar : BigNumber} {entry : RouteEntry} {fill : Fill}
    (hfill : o.fillFromEntry scalar entry = .ok (some fill)) {routeSamples : SourceSamples}
    (hpath : entry.routablePath = .dexSamples routeSamples) {first : DexSample}
    {rest : List DexSample} (hsamples : routeSamples.samples = first :: rest)
    (hsampled : Sampled (first :: rest)) {x y : ℚ}
    (hx : o.routeInputCorrected scalar entry.inputAmount = .fin x)
    (hfirst : first.input.toRat ≤ x) {last : DexSample} (hlast : last ∈ first :: rest)
    (hle : x ≤ last.input.toRat) (hy : entry.outputAmount = .fin y)
    (hcurve : y ≤ curve (first :: rest) x) :
    fill.input = .fin x ∧ ∃ out, fill.output = .fin out ∧ PromiseAt (first :: rest) x out := by
  rw [o.fillFromEntry_dexSamples scalar hpath hsamples, hx, hy] at hfill
  obtain rfl := Option.some.inj (Except.ok.inj hfill)
  obtain ⟨m, hmax⟩ := maxSampledOutput_eq_fin hsampled.output_eq
  -- what the fill is made of has an output that is at most the rounded curve
  have hclosest : ∃ b : ℚ,
      (closestSample (.fin x) (.fin y) first rest).output = .fin b ∧
        roundRat .halfUp b ≤ roundRat .halfUp (curve (first :: rest) x) := by
    rcases hfirst.lt_or_eq with hlt | rfl
    · refine ⟨roundRat .halfUp y, closestSample_output hsampled hlt hlast hle, ?_⟩
      rw [roundRat_intCast]
      exact roundRat_mono .halfUp hcurve
    · rw [closestSample_first hsampled, curve_first hsampled]
      exact ⟨_, hsampled.output_eq first List.mem_cons_self, le_rfl⟩
  obtain ⟨b, hb, hround⟩ := hclosest
  have hout : scaleOutput (maxSampledOutput first rest)
      (closestSample (.fin x) (.fin y) first rest).output =
        .fin ((max (min (roundRat .halfUp b) m) 1 : ℤ) : ℚ) := by
    rw [hb, hmax, scaleOutput_fin]
  refine ⟨rfl, _, hout, promiseAt_of_le_curve ?_⟩
  rw [max_comm]
  push_cast
  apply max_le_max le_rfl
  exact (min_le_left _ _).trans (Int.cast_le.mpr hround)

/-! ## Paths -/

/-- An entry of a sampled source that was answered, at an amount within its samples, with no more
than its curve. -/
structure WithinCurve (entry : RouteEntry) (routeSamples : SourceSamples) (x : ℚ) : Prop where
  path_eq : entry.routablePath = .dexSamples routeSamples
  sampled : Sampled routeSamples.samples
  first_le : ∀ s ∈ routeSamples.samples.head?, s.input.toRat ≤ x
  le_last : ∃ s ∈ routeSamples.samples, x ≤ s.input.toRat
  output_le : ∃ y, entry.outputAmount = .fin y ∧ y ≤ curve routeSamples.samples x

/-- A pair that brings half of what it is given, sampled at 2, 4 and 6. -/
def samplesAtHalf : SourceSamples where
  source := .uniswapV2
  samples := [2, 4, 6].map fun amount : ℚ =>
    ⟨.uniswapV2, .uniswapV2 ["input", "output"] "router", .fin amount, .fin (amount / 2),
      uniswapV2_sampled, uniswapV2_ne_native⟩
  source_eq := by simp

/-- All of an amount through the pair, answered with half of it. -/
def halfRoute (amount : ℚ) : Route := [⟨.fin amount, .fin (amount / 2), .dexSamples samplesAtHalf⟩]

theorem samplesAtHalf_sampled : Sampled samplesAtHalf.samples := by
  constructor <;> (simp [samplesAtHalf]; try norm_num)

theorem samplesAtHalf_concave : Concave ((0, 0) :: samplesAtHalf.samples.map point) := by
  simp [samplesAtHalf, point, Concave, Interpolation.slope]
  norm_num

theorem curve_samplesAtHalf {x : ℚ} (h : x ≤ 6) : curve samplesAtHalf.samples x = x / 2 := by
  simp only [curve, samplesAtHalf, point, List.map_cons, List.map_nil, toRat_fin, interpolate,
    Interpolation.slope]
  split_ifs <;> linarith

end ZeroExApi.SampledRates
