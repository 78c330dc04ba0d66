/-
# ZeroExApi.RouteCoverage — the fills of a route cover the amount

`createPathFromRoute` scales what the router filled an entry with to the amount asked for and rounds
it up.  A rounded-up share is less than one unit larger than the exact one, so the shares sum to the
amount at least and to less than the amount and a unit for each entry (`sum_share`).  A native order
is filled with no more than it has, and the fills cover the amount where that is its share.
-/

import ZeroExApi.SellQuote

namespace ZeroExApi.RouteCoverage

open ZeroExApi.Lib ZeroExApi.Lib.BigNumber ZeroExApi.Lib.Fallible ZeroExApi.Fills
open ZeroExApi.PathOptimizer

/-! ## Shares -/

/-- The share of an entry: scaled to the amount, rounded up, and no more than the amount. -/
def share (amount total input : ℚ) : ℚ := min (⌈amount / total * input⌉ : ℤ) amount

section Share

variable {amount total input : ℚ}

theorem le_share (hamount : 0 ≤ amount) (htotal : 0 < total) (hle : input ≤ total) :
    amount / total * input ≤ share amount total input := by
  apply le_min (Int.le_ceil _)
  calc amount / total * input ≤ amount / total * total := by gcongr
    _ = amount := div_mul_cancel₀ amount htotal.ne'

theorem share_lt : share amount total input < amount / total * input + 1 :=
  lt_of_le_of_lt (min_le_left _ _) (Int.ceil_lt_add_one _)

/-- The shares of some inputs are their exact shares, and less than a unit more for each of them. -/
theorem sum_share (hamount : 0 ≤ amount) (htotal : 0 < total) {inputs : List ℚ}
    (hle : ∀ input ∈ inputs, input ≤ total) (hne : inputs ≠ []) :
    amount / total * inputs.sum ≤ (inputs.map (share amount total)).sum ∧
      (inputs.map (share amount total)).sum < amount / total * inputs.sum + inputs.length := by
  induction inputs with
  | nil => exact absurd rfl hne
  | cons input inputs ih =>
    have hfirst := le_share hamount htotal (hle input List.mem_cons_self)
    have hlast : share amount total input < _ := share_lt
    rw [List.map_cons, List.sum_cons, List.sum_cons, List.length_cons, mul_add]
    push_cast
    cases inputs with
    | nil =>
      simp only [List.map_nil, List.sum_nil, List.length_nil, Nat.cast_zero, mul_zero]
      constructor <;> linarith
    | cons next inputs =>
      obtain ⟨hge, hlt⟩ :=
        ih (fun x hx => hle x (List.mem_cons_of_mem _ hx)) (List.cons_ne_nil _ _)
      constructor <;> linarith

end Share

/-! ## Routes whose inputs have outputs -/

/-- An entry as the router answers: what has an input has an output. -/
structure Routed (entry : RouteEntry) : Prop where
  inputAmount_eq : entry.inputAmount = .fin entry.input
  input_nonneg : 0 ≤ entry.input
  output_pos : 0 < entry.input → entry.outputAmount = .fin entry.output ∧ 0 < entry.output

/-- The entries with a positive input. -/
def positive (route : Route) : Route := route.filter fun e => decide (0 < e.input)

theorem Routed.isUsed {entry : RouteEntry} (h : Routed entry) :
    entry.isUsed = decide (0 < entry.input) := by
  unfold RouteEntry.isUsed
  rw [decide_eq_decide]
  exact ⟨And.left, fun hpos => ⟨hpos, (h.output_pos hpos).2⟩⟩

theorem Routed.tested {entry : RouteEntry} (h : Routed entry) : entry.Tested := by
  unfold RouteEntry.Tested
  rw [h.isUsed, h.inputAmount_eq, isFalsy_fin]
  rcases h.input_nonneg.lt_or_eq with hpos | hzero
  · obtain ⟨houtput, houtput₀⟩ := h.output_pos hpos
    rw [houtput, isFalsy_fin, decide_eq_false hpos.ne', decide_eq_false houtput₀.ne',
      decide_eq_true hpos]
    rfl
  · rw [← hzero]
    simp

section Routes

variable {route : Route} (hroute : ∀ e ∈ route, Routed e)
include hroute

theorem used_eq_positive : route.used = positive route :=
  List.filter_congr fun e he => (hroute e he).isUsed

/-- The entries without an input add nothing to the total. -/
theorem sum_positive : ((positive route).map RouteEntry.input).sum = route.total := by
  apply Route.sum_filter_input
  intro e he hzero
  exact le_antisymm (not_lt.mp fun hpos => hzero (decide_eq_true hpos)) (hroute e he).input_nonneg

end Routes

/-! ## The fills of a route -/

/-- The input of a fill is the share of its entry, of a native order no more than the order has. -/
def HasShare (side : MarketOperation) (share : ℚ) (entry : RouteEntry) (fill : Fill) : Prop :=
  match entry.routablePath with
  | .dexSamples _ => fill.input = .fin share
  | .nativeOrders orders => ∃ order, orders.getLast? = some order ∧
      fill.input = (BigNumber.fin share).min (nativeOrderToNormalizedAmounts side order).1

/-- No native order of an entry is smaller than a share. -/
def LargeEnough (side : MarketOperation) (share : ℚ) (entry : RouteEntry) : Prop :=
  match entry.routablePath with
  | .dexSamples _ => True
  | .nativeOrders orders => ∀ order, orders.getLast? = some order →
      ∃ n, (nativeOrderToNormalizedAmounts side order).1 = .fin n ∧ share ≤ n

/-- The fills of a route: one for each entry with an input, of its share.  They cover the amount,
and less than a unit more for each entry, where no native order is smaller than its share. -/
structure Covers (side : MarketOperation) (amount : ℚ) (route : Route)
    (fills : List Fill) : Prop where
  shares : List.Forall₂ (fun e fill => HasShare side (share amount route.total e.input) e fill)
    (positive route) fills
  covers : (∀ e ∈ positive route, LargeEnough side (share amount route.total e.input) e) →
    ∃ s : ℚ, sumAmounts (fills.map fun fill => fill.input) = .fin s ∧
      amount ≤ s ∧ s < amount + route.length

theorem hasShare_of_entry {o : PathOptimizer} {share : ℚ} {entry : RouteEntry} {fill : Fill}
    (h : o.FillOfEntry (.fin share) entry fill) : HasShare o.pathContext.side share entry fill := by
  unfold HasShare
  cases h with
  | dexSamples routeSamples first rest hpath hsamples hinput =>
    rw [hpath]
    exact hinput
  | nativeOrder orders order hpath horder hinput =>
    rw [hpath]
    exact ⟨order, horder, hinput⟩

theorem HasShare.input_eq {side : MarketOperation} {share : ℚ} {entry : RouteEntry} {fill : Fill}
    (h : HasShare side share entry fill) (hlarge : LargeEnough side share entry) :
    fill.input = .fin share := by
  unfold HasShare at h
  unfold LargeEnough at hlarge
  cases hpath : entry.routablePath with
  | dexSamples routeSamples =>
    rw [hpath] at h
    exact h
  | nativeOrders orders =>
    rw [hpath] at h hlarge
    obtain ⟨order, horder, hinput⟩ := h
    obtain ⟨n, hn, hle⟩ := hlarge order horder
    rw [hinput, hn, min_fin, min_eq_left hle]

section Cover

variable {o : PathOptimizer} {amount : ℚ} (hamount : 0 ≤ amount)
  (hinput : o.inputAmount = .fin amount)
  {route : Route} (hroute : ∀ e ∈ route, Routed e) (hsome : ∃ e ∈ route, 0 < e.input)

include hroute hsome in
theorem total_pos : 0 < route.total := by
  obtain ⟨e, he, hpos⟩ := hsome
  exact hpos.trans_le (Route.input_le_total (fun x hx => (hroute x hx).input_nonneg) he)

include hinput hroute hsome in
/-- The scaled input of an entry is its share. -/
theorem routeInputCorrected_eq_share {e : RouteEntry} (he : e ∈ route) :
    o.routeInputCorrected
        (o.inputAmount.div (BigNumber.sum (route.map RouteEntry.inputAmount))) e.inputAmount =
      .fin (share amount route.total e.input) := by
  have htotal := total_pos hroute hsome
  unfold routeInputCorrected share
  rw [hinput, Route.sum_inputAmount (fun x hx => (hroute x hx).inputAmount_eq)
    (List.ne_nil_of_mem he), (hroute e he).inputAmount_eq, div_fin _ htotal.ne', times_fin,
    integerValue_fin, min_fin]
  rfl

include hamount hroute hsome in
/-- The fills of the shares cover the amount. -/
theorem covers_of_shares {side : MarketOperation} {fills : List Fill}
    (h : List.Forall₂ (fun e fill => HasShare side (share amount route.total e.input) e fill)
      (positive route) fills) : Covers side amount route fills := by
  refine ⟨h, fun hlarge => ?_⟩
  have htotal := total_pos hroute hsome
  have hinputs : ((positive route).map RouteEntry.input).map
      (fun x => BigNumber.fin (share amount route.total x)) =
      fills.map fun fill => fill.input := by
    rw [List.map_map]
    refine map_eq_map ((List.forall₂_and_left _ _).mpr ⟨hlarge, h⟩) fun e fill hfill => ?_
    exact (HasShare.input_eq hfill.2 hfill.1).symm
  have hne : (positive route).map RouteEntry.input ≠ [] := by
    obtain ⟨e, he, hpos⟩ := hsome
    exact List.ne_nil_of_mem (List.mem_map_of_mem (List.mem_filter.mpr ⟨he, decide_eq_true hpos⟩))
  have hle : ∀ x ∈ (positive route).map RouteEntry.input, x ≤ route.total := by
    intro x hx
    obtain ⟨e, he, rfl⟩ := List.mem_map.mp hx
    exact Route.input_le_total (fun x hx => (hroute x hx).input_nonneg) (List.mem_of_mem_filter he)
  obtain ⟨hge, hlt⟩ := sum_share hamount htotal hle hne
  rw [sum_positive hroute, div_mul_cancel₀ amount htotal.ne'] at hge hlt
  have hlength : (((positive route).map RouteEntry.input).length : ℚ) ≤ route.length := by
    rw [List.length_map]
    exact_mod_cast List.length_filter_le _ _
  refine ⟨_, ?_, hge, hlt.trans_le (by linarith)⟩
  rw [← hinputs]
  exact sumAmounts_fin _ _

include hamount hinput hroute hsome in
/-- A path made from a route has one fill for each entry with an input, of its share, and covers the
amount where no native order is smaller than its share.  With finite outputs and something to fill
each entry from, the path is the one created of such fills. -/
theorem createPathFromRoute_covers :
    (∀ path, o.createPathFromRoute route = .ok (some path) →
        Covers o.pathContext.side amount route path.fills) ∧
      ((∀ e ∈ route, e.outputAmount.isFinite = true) →
        (∀ e ∈ positive route, e.routablePath.CanFill) →
          ∃ fills, Covers o.pathContext.side amount route fills ∧
            o.createPathFromRoute route =
              (Path.create o.pathContext fills o.inputAmount o.pathPenaltyOpts).map some) := by
  have hanswered : route.answered = positive route := by
    rw [Route.answered_eq_used fun e he => (hroute e he).tested, used_eq_positive hroute]
  -- the fills that the loop gets to are those of the shares
  have hfills : ∀ {fills}, o.addFills
      (o.inputAmount.div (BigNumber.sum (route.map RouteEntry.inputAmount))) route [] =
        .ok (some fills) → Covers o.pathContext.side amount route fills := by
    intro fills h
    obtain ⟨added, rfl, hforall⟩ := o.addFills_eq_some h
    rw [hanswered] at hforall
    apply covers_of_shares hamount hroute hsome
    have hmem : ∀ e ∈ positive route, e ∈ route := fun e he => List.mem_of_mem_filter he
    refine ((List.forall₂_and_left _ _).mpr ⟨hmem, hforall⟩).imp ?_
    rintro e fill ⟨he, hfill⟩
    have hof := o.fillOfEntry hfill
    rw [routeInputCorrected_eq_share hinput hroute hsome he] at hof
    exact hasShare_of_entry hof
  constructor
  · intro path h
    obtain ⟨fills, _, hadded, _, hpathFills⟩ := o.createPathFromRoute_eq_some h
    rw [hpathFills]
    exact hfills hadded
  · intro hfinite hfill
    obtain ⟨result, hresult⟩ := o.addFills_succeeds
      (o.inputAmount.div (BigNumber.sum (route.map RouteEntry.inputAmount)))
      (by rwa [hanswered]) []
    cases result with
    | none => exact absurd hresult (o.addFills_ne_none hfinite [])
    | some fills =>
      have hcovers := hfills hresult
      refine ⟨fills, hcovers, ?_⟩
      have hne : fills.length ≠ 0 := by
        obtain ⟨e, he, hpos⟩ := hsome
        have hmem : e ∈ positive route := List.mem_filter.mpr ⟨he, decide_eq_true hpos⟩
        rw [← hcovers.shares.length_eq]
        exact (List.length_pos_of_mem hmem).ne'
      unfold createPathFromRoute
      dsimp only
      rw [hresult, ok_bind]
      dsimp only
      rw [if_neg hne]
      cases Path.create o.pathContext fills o.inputAmount o.pathPenaltyOpts with
      | error e => rfl
      | ok path => rfl

end Cover

/-! ### A native order, Uniswap V2 and a two-hop -/

/-- An order of ten units. -/
def orderOfTen : NativeOrderWithFillableAmounts where
  order := ⟨"maker", "output", "input", .fin 20, .fin 10, .fin 0⟩
  type := .rfq
  signature := ⟨2, "r", "s", 27⟩
  fillableMakerAmount := .fin 20
  fillableTakerAmount := .fin 10
  fillableTakerFeeAmount := .fin 0

/-- An amount in three parts. -/
def thirdsRoute : Route :=
  ⟨.fin 1, .fin 2, .nativeOrders [orderOfTen]⟩ :: SellQuote.halvesRoute

theorem thirdsRoute_covers :
    (∀ path, (RoutedPath.plainOptimizer .sell 5).createPathFromRoute thirdsRoute = .ok (some path) →
        Covers .sell 5 thirdsRoute path.fills) ∧
      ((∀ e ∈ thirdsRoute, e.outputAmount.isFinite = true) →
        (∀ e ∈ positive thirdsRoute, e.routablePath.CanFill) →
          ∃ fills, Covers .sell 5 thirdsRoute fills ∧
            (RoutedPath.plainOptimizer .sell 5).createPathFromRoute thirdsRoute =
              (Path.create (RoutedPath.plainOptimizer .sell 5).pathContext fills (.fin 5)
                (RoutedPath.plainOptimizer .sell 5).pathPenaltyOpts).map some) := by
  have hone : (0 : ℚ) < 1 := one_pos
  have htwo : (0 : ℚ) < 2 := two_pos
  have hroute : ∀ e ∈ thirdsRoute, Routed e := by
    intro e he
    rcases List.mem_cons.mp he with rfl | he
    · exact ⟨rfl, hone.le, fun _ => ⟨rfl, htwo⟩⟩
    · rcases List.mem_cons.mp he with rfl | he
      · exact ⟨rfl, hone.le, fun _ => ⟨rfl, hone⟩⟩
      · cases List.mem_singleton.mp he
        exact ⟨rfl, hone.le, fun _ => ⟨rfl, hone⟩⟩
  have hsome : ∃ e ∈ thirdsRoute, 0 < e.input := ⟨_, List.mem_cons_self, hone⟩
  exact createPathFromRoute_covers (o := RoutedPath.plainOptimizer .sell 5) (by norm_num) rfl hroute
    hsome

end ZeroExApi.RouteCoverage
