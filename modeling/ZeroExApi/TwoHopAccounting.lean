/-
# ZeroExApi.TwoHopAccounting — a two-hop sample as the router sees it, and as the path has it

The same two-hop sample becomes a fill twice.  For the router, `createFillFromTwoHopSample` takes
the worse of the adjustments for its hops and the flags of both.  From the router's answer,
`createPathFromRoute` makes the fill by `createFillFromDexSample`, to which the sample is one of the
source `MultiHop`: the fill has the flag of that source and of no hop (`twoHop_accounts_differ`),
and so has the path.
-/

import ZeroExApi.RoutablePaths

namespace ZeroExApi.TwoHopAccounting

open ZeroExApi.Lib ZeroExApi.Fills ZeroExApi.PathOptimizer ZeroExApi.RoutedPath

/-- Two fills account for a sample in the same way. -/
structure SameAccount (fill fill' : Fill) : Prop where
  output_eq : fill.output = fill'.output
  adjustedOutput_eq : fill.adjustedOutput = fill'.adjustedOutput
  flags_eq : fill.flags = fill'.flags

theorem adjustFill_flags (o : PathOptimizer) (fill : Fill) :
    (o.adjustFill fill).flags = fill.flags := rfl

/-- What the router is told has the flags of the hops. -/
theorem createFillFromTwoHopSample_flags (o : PathOptimizer) (sample : TwoHopSample) :
    (o.createFillFromTwoHopSample sample).flags =
      (twoHopSampleToFill o.pathContext.side sample o.pathPenaltyOpts.outputAmountPerEth
        (o.feeSchedule .multiHop)).flags := by
  unfold createFillFromTwoHopSample
  dsimp only
  cases o.pathContext.side with
  | sell =>
    dsimp only
    split
    · exact adjustFill_flags o _
    · exact adjustFill_flags o _
  | buy =>
    dsimp only
    split
    · exact adjustFill_flags o _
    · exact adjustFill_flags o _

/-- The fill of an entry of two-hop samples has the flag of the source alone. -/
theorem twoHop_flags {o : PathOptimizer} {scalar : BigNumber} {entry : RouteEntry} {fill : Fill}
    (hfill : o.fillFromEntry scalar entry = .ok (some fill)) {routeSamples : SourceSamples}
    (hpath : entry.routablePath = .dexSamples routeSamples)
    (hsource : routeSamples.source = .multiHop) :
    fill.flags = SOURCE_FLAGS (.source .multiHop) := by
  cases o.fillOfEntry hfill with
  | dexSamples routeSamples' _ _ hpath' _ _ _ _ _ _ hflags =>
    rw [hpath] at hpath'
    cases hpath'
    rw [hflags, hsource, flagKey, if_neg multiHop_ne_native]
  | nativeOrder _ _ hpath' =>
    rw [hpath] at hpath'
    cases hpath'

/-- No fill that a path has of a two-hop accounts for it as what the router was told does. -/
theorem twoHop_accounts_differ {o : PathOptimizer} {route : Route} {path : Path}
    (h : o.createPathFromRoute route = .ok (some path)) :
    List.Forall₂
      (fun entry fill => ∀ routeSamples, entry.routablePath = .dexSamples routeSamples →
        ∀ sample : TwoHopSample, sample.toDexSample ∈ routeSamples.samples →
          ¬ SameAccount fill (o.createFillFromTwoHopSample sample))
      route.answered path.fills := by
  refine (o.path_fills h).imp ?_
  intro entry fill hfill routeSamples hpath sample hsample hsame
  have hsource : routeSamples.source = .multiHop :=
    (routeSamples.source_eq _ hsample).symm
  have hflags := hsame.flags_eq
  rw [twoHop_flags hfill hpath hsource, createFillFromTwoHopSample_flags] at hflags
  exact twoHopSampleToFill_flags_ne _ _ _ _ hflags.symm

/-! ### Ten units for five -/

/-- A two-hop of ten units for five. -/
def tenForFive : TwoHopSample :=
  ⟨NeonPathOptimizer.uniswapV2Hop, NeonPathOptimizer.uniswapV2Hop, "token", .fin 10, .fin 5⟩

/-- All of it, as it was sampled. -/
def tenForFiveRoute : Route := [⟨.fin 10, .fin 5, .dexSamples (twoHopSourceSamples [tenForFive])⟩]

theorem tenForFive_accounts_differ :
    ∃ path, (plainOptimizer .sell 10).createPathFromRoute tenForFiveRoute = .ok (some path) ∧
      ∃ fill ∈ path.fills,
        ¬ SameAccount fill ((plainOptimizer .sell 10).createFillFromTwoHopSample tenForFive) := by
  obtain ⟨path, hpath, _⟩ := (plainOptimizer .sell 10).exists_path_of_madePath tenForFiveRoute
    (fun _ => true) (by decide +kernel)
  refine ⟨path, hpath, ?_⟩
  have hfills := twoHop_accounts_differ hpath
  have hanswered : tenForFiveRoute.answered = tenForFiveRoute := by
    simp [Route.answered, tenForFiveRoute]
  rw [hanswered, tenForFiveRoute, List.forall₂_cons_left_iff] at hfills
  obtain ⟨fill, rest, hfill, _, hrest⟩ := hfills
  refine ⟨fill, by rw [hrest]; exact List.mem_cons_self, ?_⟩
  exact hfill _ rfl tenForFive List.mem_cons_self

/-- The path of all of it has the output and the adjusted output the router was told, and not the
flag of the hop. -/
theorem tenForFive_loses_hop_flags :
    ((plainOptimizer .sell 10).createFillFromTwoHopSample tenForFive).flags =
        SOURCE_FLAGS (.source .multiHop) ||| SOURCE_FLAGS (.source .uniswapV2) ∧
      ∃ path, (plainOptimizer .sell 10).createPathFromRoute tenForFiveRoute = .ok (some path) ∧
        ∃ fill ∈ path.fills, fill.output = .fin 5 ∧ fill.adjustedOutput = .fin 5 ∧
          fill.flags = SOURCE_FLAGS (.source .multiHop) ∧
          fill.flags ≠
            ((plainOptimizer .sell 10).createFillFromTwoHopSample tenForFive).flags := by
  refine ⟨by decide +kernel, ?_⟩
  obtain ⟨path, hpath, hcheck⟩ :=
    (plainOptimizer .sell 10).exists_path_of_madePath tenForFiveRoute
      (fun path => decide (∃ fill ∈ path.fills, fill.output = .fin 5 ∧
        fill.adjustedOutput = .fin 5 ∧ fill.flags = SOURCE_FLAGS (.source .multiHop) ∧
        fill.flags ≠ ((plainOptimizer .sell 10).createFillFromTwoHopSample tenForFive).flags))
      (by decide +kernel)
  exact ⟨path, hpath, of_decide_eq_true hcheck⟩

end ZeroExApi.TwoHopAccounting
