/-
# ZeroExApi.PathOptimizer — the path made of a router's answer

`market_operation_utils/path_optimizer.ts`, from the answer of the router to the path:
`createPathFromRoute`.  The router, which is not part of the repository, answers with an input and
an output amount for each routable path it was given; an entry of a `Route` is such a pair with its
path.  Each input is scaled to the amount asked for and rounded up, each entry that was used becomes
a fill, and the fills make the path.

The last section says what the fills are for any answer in finite amounts: `fills_of_route`.  The
input of a fill is the entry's share of the amount as the code computes it (`scaledShare`), which
with exact quotients is `Apportion.ceilShare`.
-/

import ZeroExApi.Path
import ZeroExApi.Lib.Apportion

namespace ZeroExApi

open ZeroExApi.Lib ZeroExApi.Lib.Fallible ZeroExApi.Lib.BitFlags ZeroExApi.Lib.Apportion
open ZeroExApi.Fills

/-! ## Routes -/

/-- The samples of one source. -/
structure SourceSamples where
  source : ERC20BridgeSource
  samples : List DexSample
  source_eq : ∀ s ∈ samples, s.source = source

/-- `RoutablePath`: samples of one source, or native orders. -/
inductive RoutablePath where
  | dexSamples (routeSamples : SourceSamples)
  | nativeOrders (orders : List NativeOrderWithFillableAmounts)

/-- The source of a routable path. -/
def RoutablePath.source : RoutablePath → ERC20BridgeSource
  | .dexSamples routeSamples => routeSamples.source
  | .nativeOrders _ => .native

/-- There is something a routable path can be filled from. -/
def RoutablePath.CanFill : RoutablePath → Prop
  | .dexSamples routeSamples => routeSamples.samples ≠ []
  | .nativeOrders orders => orders ≠ []

/-- A routable path with the amounts the router filled it with. -/
structure RouteEntry where
  inputAmount : BigNumber
  outputAmount : BigNumber
  routablePath : RoutablePath

/-- `Route`. -/
abbrev Route := List RouteEntry

/-- The amounts of an entry as rationals. -/
def RouteEntry.input (entry : RouteEntry) : ℚ := entry.inputAmount.toRat

def RouteEntry.output (entry : RouteEntry) : ℚ := entry.outputAmount.toRat

/-- An entry as the router answers: finite amounts that are not negative. -/
structure RouteEntry.Valid (entry : RouteEntry) : Prop where
  inputAmount_eq : entry.inputAmount = .fin entry.input
  outputAmount_eq : entry.outputAmount = .fin entry.output
  input_nonneg : 0 ≤ entry.input
  output_nonneg : 0 ≤ entry.output

/-- An entry the router used has a part of the input and an output. -/
def RouteEntry.isUsed (entry : RouteEntry) : Bool := decide (0 < entry.input ∧ 0 < entry.output)

/-- The test for an unused entry finds the entries that are not used. -/
def RouteEntry.Tested (entry : RouteEntry) : Prop :=
  (entry.inputAmount.isFalsy || entry.outputAmount.isFalsy) = !entry.isUsed

theorem RouteEntry.Valid.isFalsy {entry : RouteEntry} (h : entry.Valid) : entry.Tested := by
  unfold RouteEntry.Tested
  have hinput : decide (entry.input = 0) = !decide (0 < entry.input) := by
    rw [← decide_not, decide_eq_decide, not_lt]
    exact ⟨le_of_eq, fun hle => le_antisymm hle h.input_nonneg⟩
  have houtput : decide (entry.output = 0) = !decide (0 < entry.output) := by
    rw [← decide_not, decide_eq_decide, not_lt]
    exact ⟨le_of_eq, fun hle => le_antisymm hle h.output_nonneg⟩
  rw [h.inputAmount_eq, h.outputAmount_eq, BigNumber.isFalsy_fin, BigNumber.isFalsy_fin, hinput,
    houtput, ← Bool.not_and, RouteEntry.isUsed, Bool.decide_and]

/-- An entry of two-hop samples. -/
def RouteEntry.isTwoHop (entry : RouteEntry) : Bool := entry.routablePath.source == .multiHop

/-- The entries the router used. -/
def Route.used (route : Route) : Route := route.filter RouteEntry.isUsed

theorem Route.input_pos_of_used {route : Route} {entry : RouteEntry} (h : entry ∈ route.used) :
    0 < entry.input :=
  (of_decide_eq_true (List.mem_filter.mp h).2).1

/-- The entries the loop does not pass over. -/
def Route.answered (route : Route) : Route :=
  route.filter fun e => !(e.inputAmount.isFalsy || e.outputAmount.isFalsy)

theorem Route.answered_eq_used {route : Route} (htested : ∀ e ∈ route, e.Tested) :
    route.answered = route.used := by
  apply List.filter_congr
  intro e he
  rw [htested e he, Bool.not_not]

/-- All that the router routed. -/
def Route.total (route : Route) : ℚ := (route.map RouteEntry.input).sum

namespace Route

variable {route : Route}

theorem sum_inputAmount (hfinite : ∀ e ∈ route, e.inputAmount = .fin e.input) (hne : route ≠ []) :
    BigNumber.sum (route.map RouteEntry.inputAmount) = .fin route.total := by
  have hmap : route.map RouteEntry.inputAmount = (route.map RouteEntry.input).map .fin := by
    rw [List.map_map]
    exact List.map_congr_left hfinite
  rw [hmap, BigNumber.sum_fin (by simpa using hne)]
  rfl

theorem input_le_total (hnonneg : ∀ e ∈ route, 0 ≤ e.input) {entry : RouteEntry}
    (hentry : entry ∈ route) : entry.input ≤ route.total := by
  apply List.single_le_sum
  · intro r hr
    obtain ⟨e, he, rfl⟩ := List.mem_map.mp hr
    exact hnonneg e he
  · exact List.mem_map_of_mem hentry

/-- A route that uses some entry routed something. -/
theorem total_pos (hvalid : ∀ e ∈ route, e.Valid) (hused : route.used ≠ []) :
    0 < route.total := by
  obtain ⟨e, he⟩ := List.exists_mem_of_ne_nil _ hused
  exact (input_pos_of_used he).trans_le
    (input_le_total (fun x hx => (hvalid x hx).input_nonneg) (List.mem_of_mem_filter he))

/-- The entries that are kept have all of the routed total, when nothing goes to the others. -/
theorem sum_filter_input {kept : RouteEntry → Bool}
    (hrest : ∀ e ∈ route, ¬ kept e = true → e.input = 0) :
    ((route.filter kept).map RouteEntry.input).sum = route.total := by
  induction route with
  | nil => rfl
  | cons e route ih =>
    have hsum := ih fun x hx => hrest x (List.mem_cons_of_mem _ hx)
    have htotal : Route.total (e :: route) = e.input + Route.total route := rfl
    by_cases hkept : kept e = true
    · rw [List.filter_cons_of_pos hkept, List.map_cons, List.sum_cons, hsum, htotal]
    · rw [List.filter_cons_of_neg hkept, hsum, htotal, hrest e List.mem_cons_self hkept, zero_add]

/-- The used entries have all of the routed total, when what is routed has an output. -/
theorem sum_used_input (hvalid : ∀ e ∈ route, e.Valid)
    (houtput : ∀ e ∈ route, 0 < e.input → 0 < e.output) :
    (route.used.map RouteEntry.input).sum = route.total := by
  apply sum_filter_input
  intro e he hunused
  by_contra hne
  have hpos := lt_of_le_of_ne (hvalid e he).input_nonneg (Ne.symm hne)
  exact hunused (decide_eq_true ⟨hpos, houtput e he hpos⟩)

end Route

/-- `PathOptimizer`. -/
structure PathOptimizer where
  pathContext : PathContext
  feeSchedule : FeeSchedule
  fillAdjustor : FillAdjustor
  pathPenaltyOpts : PathPenaltyOpts
  inputAmount : BigNumber

namespace PathOptimizer

variable (o : PathOptimizer)

/-! ## Fills of a route, as computed -/

/-- `createFillFromDexSample`. -/
def createFillFromDexSample (sample : DexSample) : Fill :=
  let fill :=
    dexSampleToFill o.pathContext.side sample o.pathPenaltyOpts.outputAmountPerEth
      o.pathPenaltyOpts.inputAmountPerEth o.feeSchedule
  match o.fillAdjustor.adjustFills o.pathContext.side [fill] with
  | adjustedFill :: _ => adjustedFill
  | [] => fill

/-- The loop over the samples, from the last index: the fill of the sample after the largest one
below the routed input.  `k + 1` samples are left when the loop looks at index `k`. -/
def fillFromClosestSample (routeSamples : List DexSample)
    (routeInputCorrected outputAmount : BigNumber) : ℕ → Fill → Fill
  | 0, fill => fill
  | k + 1, fill =>
    -- the first sample is all that is left to use
    let fill :=
      match k, routeSamples with
      | 0, first :: _ => o.createFillFromDexSample first
      | _, _ => fill
    match routeSamples[k]? with
    | none => fill
    | some left =>
      if routeInputCorrected.gt left.input then
        match routeSamples[k + 1]? with
        | some right =>
          o.createFillFromDexSample
            { right with
              input := routeInputCorrected
              output := outputAmount.integerValue .halfUp }
        | none => o.createFillFromDexSample left
      else
        fillFromClosestSample routeSamples routeInputCorrected outputAmount k fill

/-- `scaleOutput`: not above the largest sampled output, not below one base unit. -/
def scaleOutput (maxSampledOutput output : BigNumber) : BigNumber :=
  ((output.integerValue .halfUp).min maxSampledOutput).max 1

/-- `routeInputCorrected`. -/
def routeInputCorrected (precisionErrorScalar routeInputAmount : BigNumber) : BigNumber :=
  ((precisionErrorScalar.times routeInputAmount).integerValue .ceil).min o.inputAmount

/-- The fill of a used entry; `none` when there is no fill for its native order. -/
def fillFromEntry [Arithmetic] (precisionErrorScalar : BigNumber) (entry : RouteEntry) :
    Except JsError (Option Fill) :=
  let routeInputCorrected := o.routeInputCorrected precisionErrorScalar entry.inputAmount
  match entry.routablePath with
  | .nativeOrders orders =>
    match orders.getLast? with
    | none => .error .typeError
    | some current =>
      .ok
        (nativeOrderToFill o.pathContext.side current routeInputCorrected
          o.pathPenaltyOpts.outputAmountPerEth o.pathPenaltyOpts.inputAmountPerEth o.feeSchedule
          false)
  | .dexSamples routeSamples =>
    match routeSamples.samples, routeSamples.samples.getLast? with
    | first :: rest, some current =>
      let fill :=
        o.fillFromClosestSample routeSamples.samples routeInputCorrected entry.outputAmount
          routeSamples.samples.length (o.createFillFromDexSample current)
      let maxSampledOutput :=
        (BigNumber.maxOf first.output (rest.map DexSample.output)).integerValue .halfUp
      .ok
        (some
          { fill with
            input := routeInputCorrected
            output := scaleOutput maxSampledOutput fill.output
            adjustedOutput := scaleOutput maxSampledOutput fill.adjustedOutput })
    | _, _ => .error .typeError

/-- The loop over the entries; `none` when the router answered with an output that is no number. -/
def addFills [Arithmetic] (precisionErrorScalar : BigNumber) :
    Route → List Fill → Except JsError (Option (List Fill))
  | [], adjustedFills => .ok (some adjustedFills)
  | entry :: route, adjustedFills =>
    if !entry.outputAmount.isFinite then
      .ok none
    else if entry.inputAmount.isFalsy || entry.outputAmount.isFalsy then
      addFills precisionErrorScalar route adjustedFills
    else
      match o.fillFromEntry precisionErrorScalar entry with
      | .error e => .error e
      | .ok none => addFills precisionErrorScalar route adjustedFills
      | .ok (some fill) => addFills precisionErrorScalar route (adjustedFills ++ [fill])

/-- `createPathFromRoute`. -/
def createPathFromRoute [Arithmetic] (route : Route) : Except JsError (Option Path) := do
  let totalRoutedAmount := BigNumber.sum (route.map RouteEntry.inputAmount)
  let precisionErrorScalar := o.inputAmount.div totalRoutedAmount
  match ← o.addFills precisionErrorScalar route [] with
  | none => .ok none
  | some adjustedFills =>
    if adjustedFills.length = 0 then
      .ok none
    else do
      let path ← Path.create o.pathContext adjustedFills o.inputAmount o.pathPenaltyOpts
      .ok (some path)

theorem createFillFromDexSample_flags (sample : DexSample) :
    (o.createFillFromDexSample sample).flags = SOURCE_FLAGS (flagKey sample.source .bridge) :=
  dexSampleToFill_flags o.pathContext.side sample o.pathPenaltyOpts.outputAmountPerEth
    o.pathPenaltyOpts.inputAmountPerEth o.feeSchedule

/-! ## The sample a fill is made of -/

/-- The sample after the last one below the routed input, taken at the routed amounts; the first
sample when the routed input is above none, the last when it is above the last. -/
def closestSample (routedInput outputAmount : BigNumber) :
    DexSample → List DexSample → DexSample
  | s, [] => s
  | s, t :: rest =>
    if (t :: rest).any fun x => routedInput.gt x.input then
      closestSample routedInput outputAmount t rest
    else if routedInput.gt s.input then
      { t with input := routedInput, output := outputAmount.integerValue .halfUp }
    else
      s

section Closest

variable {routedInput outputAmount : BigNumber}

theorem closestSample_of_below {s t : DexSample} {rest : List DexSample}
    (h : (t :: rest).any (fun x => routedInput.gt x.input) = true) :
    closestSample routedInput outputAmount s (t :: rest) =
      closestSample routedInput outputAmount t rest := if_pos h

/-- The samples before the last one below the routed input do not matter. -/
theorem closestSample_append {first left : DexSample} {before after : List DexSample}
    (hleft : routedInput.gt left.input = true) :
    closestSample routedInput outputAmount first (before ++ left :: after) =
      closestSample routedInput outputAmount left after := by
  induction before generalizing first with
  | nil =>
    apply closestSample_of_below
    rw [List.any_cons, hleft, Bool.true_or]
  | cons t rest ih =>
    rw [List.cons_append, closestSample_of_below, ih]
    rw [List.any_cons, List.any_append, List.any_cons, hleft]
    simp

/-- The loop makes its fill of the closest sample: it has passed `after`, whose inputs are not below
the routed input, and `before` is still to come. -/
theorem fillFromClosestSample_eq (routedInput outputAmount : BigNumber) (first : DexSample)
    (before after : List DexSample)
    (hafter : after.any (fun x => routedInput.gt x.input) = false) (fill : Fill) :
    o.fillFromClosestSample (first :: before ++ after) routedInput outputAmount
        (before.length + 1) fill =
      o.createFillFromDexSample
        (closestSample routedInput outputAmount first (before ++ after)) := by
  -- the loop takes the samples from the end
  induction before using List.reverseRecOn generalizing after fill with
  | nil =>
    cases after with
    | nil =>
      rcases h : routedInput.gt first.input with _ | _ <;>
        simp [fillFromClosestSample, closestSample, h]
    | cons t rest =>
      rcases h : routedInput.gt first.input with _ | _ <;>
        simp [fillFromClosestSample, closestSample, h, hafter]
  | append_singleton before left ih =>
    have hindex : (first :: (before ++ [left]) ++ after)[before.length + 1]? = some left := by
      simp
    have hnext : (first :: (before ++ [left]) ++ after)[before.length + 1 + 1]? = after[0]? := by
      simp [List.getElem?_append_right]
    have hlength : (before ++ [left]).length = before.length + 1 := by simp
    rw [hlength, fillFromClosestSample, hindex]
    swap
    · intro _ _ hzero
      omega
    dsimp only
    rcases h : routedInput.gt left.input with _ | _
    · rw [if_neg Bool.false_ne_true]
      have hrest := ih (left :: after) (by rw [List.any_cons, h, hafter]; rfl) fill
      rw [List.append_assoc, List.singleton_append]
      simpa using hrest
    · rw [if_pos rfl, hnext, List.append_assoc, List.singleton_append, closestSample_append h]
      cases after with
      | nil => rfl
      | cons t rest => simp [closestSample, hafter, h]

/-- The closest sample is one of the samples, as it is or at the routed amounts. -/
theorem closestSample_cases (routedInput outputAmount : BigNumber) (s : DexSample)
    (rest : List DexSample) :
    ∃ x ∈ s :: rest, closestSample routedInput outputAmount s rest = x ∨
      closestSample routedInput outputAmount s rest =
        { x with input := routedInput, output := outputAmount.integerValue .halfUp } := by
  induction rest generalizing s with
  | nil => exact ⟨s, List.mem_cons_self, .inl rfl⟩
  | cons t rest ih =>
    unfold closestSample
    split
    · obtain ⟨x, hx, hcases⟩ := ih t
      exact ⟨x, List.mem_cons_of_mem _ hx, hcases⟩
    · split
      · exact ⟨t, List.mem_cons_of_mem _ List.mem_cons_self, .inr rfl⟩
      · exact ⟨s, List.mem_cons_self, .inl rfl⟩

theorem closestSample_source (routedInput outputAmount : BigNumber) {source : ERC20BridgeSource}
    {s : DexSample} {rest : List DexSample}
    (h : ∀ x ∈ s :: rest, x.source = source) :
    (closestSample routedInput outputAmount s rest).source = source := by
  obtain ⟨x, hx, heq | heq⟩ := closestSample_cases routedInput outputAmount s rest
  · rw [heq]
    exact h x hx
  · rw [heq]
    exact h x hx

end Closest

/-! ## The fills of a route -/

/-- `maxSampledOutput`. -/
def maxSampledOutput (first : DexSample) (rest : List DexSample) : BigNumber :=
  (BigNumber.maxOf first.output (rest.map DexSample.output)).integerValue .halfUp

/-- The largest output of samples of finite outputs is an integer. -/
theorem maxSampledOutput_eq_fin {first : DexSample} {rest : List DexSample}
    (h : ∀ s ∈ first :: rest, s.output = .fin s.output.toRat) :
    ∃ m : ℤ, maxSampledOutput first rest = .fin m := by
  have hrest : ∀ x ∈ rest.map DexSample.output, x = .fin x.toRat := by
    intro x hx
    obtain ⟨s, hs, rfl⟩ := List.mem_map.mp hx
    exact h s (List.mem_cons_of_mem _ hs)
  obtain ⟨c, hc⟩ := BigNumber.maxOf_fin first.output.toRat hrest
  unfold maxSampledOutput
  rw [h first List.mem_cons_self, hc]
  exact ⟨_, rfl⟩

theorem scaleOutput_fin (m : ℤ) (output : ℚ) :
    scaleOutput (.fin m) (.fin output) =
      .fin ((max (min (BigNumber.roundRat .halfUp output) m) 1 : ℤ) : ℚ) := by
  rw [scaleOutput, BigNumber.integerValue_fin, BigNumber.min_fin, BigNumber.one_eq,
    BigNumber.max_fin]
  push_cast
  rfl

section Routed

variable [Arithmetic]

/-- What is known of the fill of an entry that was routed an input. -/
inductive FillOfEntry (routedInput : BigNumber) (entry : RouteEntry) (fill : Fill) : Prop
  | dexSamples (routeSamples : SourceSamples) (first : DexSample) (rest : List DexSample)
    (path_eq : entry.routablePath = .dexSamples routeSamples)
    (samples_eq : routeSamples.samples = first :: rest)
    (input_eq : fill.input = routedInput)
    (output_eq :
      fill.output =
        scaleOutput
          ((BigNumber.maxOf first.output (rest.map DexSample.output)).integerValue .halfUp)
          (closestSample routedInput entry.outputAmount first rest).output)
    (source_eq : fill.source = routeSamples.source)
    (type_eq : fill.type = .bridge)
    (fillData_eq :
      fill.fillData = (closestSample routedInput entry.outputAmount first rest).fillData)
    (flags_eq : fill.flags = SOURCE_FLAGS (flagKey routeSamples.source .bridge))
  | nativeOrder (orders : List NativeOrderWithFillableAmounts)
    (order : NativeOrderWithFillableAmounts)
    (path_eq : entry.routablePath = .nativeOrders orders)
    (order_eq : orders.getLast? = some order)
    (input_eq :
      fill.input = routedInput.min (nativeOrderToNormalizedAmounts o.pathContext.side order).1)
    (output_eq :
      fill.output =
        (fill.input.div (nativeOrderToNormalizedAmounts o.pathContext.side order).1).times
          (nativeOrderToNormalizedAmounts o.pathContext.side order).2)
    (source_eq : fill.source = .native)
    (type_eq : fill.type = order.type)
    (fillData_eq : fill.fillData = .native order)
    (flags_eq : fill.flags = SOURCE_FLAGS (flagKey .native order.type))

/-- The fill of an entry of samples: that of the closest sample, its outputs scaled. -/
theorem fillFromEntry_dexSamples (scalar : BigNumber) {entry : RouteEntry}
    {routeSamples : SourceSamples} {first : DexSample} {rest : List DexSample}
    (hpath : entry.routablePath = .dexSamples routeSamples)
    (hsamples : routeSamples.samples = first :: rest) :
    let routedInput := o.routeInputCorrected scalar entry.inputAmount
    let fill := o.createFillFromDexSample
      (closestSample routedInput entry.outputAmount first rest)
    o.fillFromEntry scalar entry =
      .ok
        (some
          { fill with
            input := routedInput
            output := scaleOutput (maxSampledOutput first rest) fill.output
            adjustedOutput := scaleOutput (maxSampledOutput first rest) fill.adjustedOutput }) := by
  obtain ⟨current, hlast⟩ : ∃ current, (first :: rest).getLast? = some current :=
    ⟨_, List.getLast?_cons⟩
  -- the loop has not passed any sample yet
  have hfill := o.fillFromClosestSample_eq
    (o.routeInputCorrected scalar entry.inputAmount) entry.outputAmount first rest [] rfl
    (o.createFillFromDexSample current)
  rw [List.append_nil, List.append_nil] at hfill
  unfold fillFromEntry
  rw [hpath]
  dsimp only
  rw [hsamples, hlast]
  dsimp only
  rw [List.length_cons, hfill]
  rfl

/-- Every entry that gets past the errors has a fill, and this is what it is. -/
theorem fillFromEntry_eq_ok {scalar : BigNumber} {entry : RouteEntry} {result : Option Fill}
    (h : o.fillFromEntry scalar entry = .ok result) :
    ∃ fill, result = some fill ∧
      o.FillOfEntry (o.routeInputCorrected scalar entry.inputAmount) entry fill := by
  cases hpath : entry.routablePath with
  | nativeOrders orders =>
    unfold fillFromEntry at h
    rw [hpath] at h
    dsimp only at h
    split at h
    · cases h
    · rename_i order horder
      obtain ⟨fill, hfill, hinput, houtput, hsource, htype, hdata, hflags⟩ :=
        nativeOrderToFill_of_not_filtered o.pathContext.side order
          (o.routeInputCorrected scalar entry.inputAmount)
          o.pathPenaltyOpts.outputAmountPerEth o.pathPenaltyOpts.inputAmountPerEth o.feeSchedule
      refine ⟨fill, (Except.ok.inj h).symm.trans hfill, ?_⟩
      exact .nativeOrder orders order hpath horder hinput houtput hsource htype hdata hflags
  | dexSamples routeSamples =>
    cases hsamples : routeSamples.samples with
    -- an entry without samples is an error
    | nil =>
      unfold fillFromEntry at h
      rw [hpath] at h
      dsimp only at h
      rw [hsamples] at h
      cases h
    | cons first rest =>
      rw [o.fillFromEntry_dexSamples scalar hpath hsamples] at h
      have hmem : ∀ x ∈ first :: rest, x.source = routeSamples.source :=
        hsamples ▸ routeSamples.source_eq
      have hsource := closestSample_source
        (o.routeInputCorrected scalar entry.inputAmount) entry.outputAmount hmem
      refine ⟨_, (Except.ok.inj h).symm, ?_⟩
      refine .dexSamples routeSamples first rest hpath hsamples rfl rfl hsource rfl rfl ?_
      rw [← hsource]
      exact o.createFillFromDexSample_flags _

/-- Where the loop gets to the end, it makes one fill for each entry it does not pass over, in
order. -/
theorem addFills_eq_some {scalar : BigNumber} {route : Route} {fills result : List Fill}
    (h : o.addFills scalar route fills = .ok (some result)) :
    ∃ added, result = fills ++ added ∧
      List.Forall₂ (fun e fill => o.fillFromEntry scalar e = .ok (some fill))
        route.answered added := by
  induction route generalizing fills with
  | nil =>
    refine ⟨[], ?_, .nil⟩
    rw [List.append_nil]
    exact (Option.some.inj (Except.ok.inj h)).symm
  | cons e route ih =>
    unfold addFills at h
    split at h
    · cases h
    · split at h
      · -- an entry without input or output is passed over
        rename_i hfalsy
        rw [Route.answered, List.filter_cons_of_neg (by rw [hfalsy]; exact Bool.false_ne_true)]
        exact ih h
      · rename_i hfalsy
        rw [Bool.not_eq_true] at hfalsy
        rw [Route.answered, List.filter_cons_of_pos (by rw [hfalsy]; rfl)]
        cases hfill : o.fillFromEntry scalar e with
        | error err => rw [hfill] at h; cases h
        | ok fillResult =>
          obtain ⟨fill, rfl, _⟩ := o.fillFromEntry_eq_ok hfill
          rw [hfill] at h
          obtain ⟨added, hadded, hforall⟩ := ih h
          exact ⟨fill :: added, by rw [hadded, List.append_assoc]; rfl, .cons hfill hforall⟩

/-- The fill of an entry is what is known of it. -/
theorem fillOfEntry {scalar : BigNumber} {entry : RouteEntry} {fill : Fill}
    (h : o.fillFromEntry scalar entry = .ok (some fill)) :
    o.FillOfEntry (o.routeInputCorrected scalar entry.inputAmount) entry fill := by
  obtain ⟨fill', heq, hof⟩ := o.fillFromEntry_eq_ok h
  cases heq
  exact hof

theorem fillFromEntry_succeeds (scalar : BigNumber) {entry : RouteEntry}
    (h : entry.routablePath.CanFill) : Succeeds (o.fillFromEntry scalar entry) := by
  unfold RoutablePath.CanFill at h
  unfold fillFromEntry
  cases hpath : entry.routablePath with
  | dexSamples routeSamples =>
    rw [hpath] at h
    dsimp only at h ⊢
    cases hsamples : routeSamples.samples with
    | nil => exact absurd hsamples h
    | cons first rest =>
      rw [List.getLast?_cons]
      exact succeeds_ok _
  | nativeOrders orders =>
    rw [hpath] at h
    dsimp only at h ⊢
    cases horders : orders with
    | nil => exact absurd horders h
    | cons first rest =>
      rw [List.getLast?_cons]
      exact succeeds_ok _

/-- The loop throws only for want of something to fill an entry from. -/
theorem addFills_succeeds (scalar : BigNumber) {route : Route}
    (hfill : ∀ e ∈ route.answered, e.routablePath.CanFill) (fills : List Fill) :
    Succeeds (o.addFills scalar route fills) := by
  induction route generalizing fills with
  | nil => exact succeeds_ok _
  | cons e route ih =>
    unfold addFills
    split
    · exact succeeds_ok _
    · split
      · rename_i hfalsy
        rw [Route.answered,
          List.filter_cons_of_neg (by rw [hfalsy]; exact Bool.false_ne_true)] at hfill
        exact ih hfill fills
      · rename_i hfalsy
        rw [Bool.not_eq_true] at hfalsy
        rw [Route.answered, List.filter_cons_of_pos (by rw [hfalsy]; rfl)] at hfill
        have hrest := ih fun x hx => hfill x (List.mem_cons_of_mem _ hx)
        obtain ⟨result, hresult⟩ :=
          o.fillFromEntry_succeeds scalar (hfill e List.mem_cons_self)
        rw [hresult]
        cases result with
        | none => exact hrest fills
        | some fill => exact hrest _

/-- With finite outputs, the loop gets to the end or throws. -/
theorem addFills_ne_none {scalar : BigNumber} {route : Route}
    (hfinite : ∀ e ∈ route, e.outputAmount.isFinite = true) (fills : List Fill) :
    o.addFills scalar route fills ≠ .ok none := by
  induction route generalizing fills with
  | nil =>
    intro h
    cases h
  | cons e route ih =>
    have hrest := ih fun x hx => hfinite x (List.mem_cons_of_mem _ hx)
    unfold addFills
    rw [hfinite e List.mem_cons_self, Bool.not_true, if_neg Bool.false_ne_true]
    split
    · exact hrest fills
    · split
      · intro h
        cases h
      · exact hrest fills
      · exact hrest _

/-- Of a valid route, the loop makes one fill for each used entry, in order. -/
theorem addFills_eq_ok {scalar : BigNumber} {route : Route} (hvalid : ∀ e ∈ route, e.Valid)
    {fills : List Fill} {result : Option (List Fill)}
    (h : o.addFills scalar route fills = .ok result) :
    ∃ added, result = some (fills ++ added) ∧
      List.Forall₂
        (fun e fill => o.FillOfEntry (o.routeInputCorrected scalar e.inputAmount) e fill)
        route.used added := by
  have hfinite : ∀ e ∈ route, e.outputAmount.isFinite = true := by
    intro e he
    rw [(hvalid e he).outputAmount_eq]
    rfl
  cases result with
  | none => exact absurd h (o.addFills_ne_none hfinite fills)
  | some result =>
    obtain ⟨added, rfl, hforall⟩ := o.addFills_eq_some h
    rw [Route.answered_eq_used fun e he => (hvalid e he).isFalsy] at hforall
    exact ⟨added, rfl, hforall.imp fun e fill => o.fillOfEntry⟩

/-- The share of an amount that goes to an entry: the amount over all that was routed, times what
the entry was routed, rounded up and capped by the amount. -/
def scaledShare (amount : ℕ) (total weight : ℚ) : ℤ :=
  min ⌈Arithmetic.quotient (amount / total) * weight⌉ amount

theorem scaledShare_le (amount : ℕ) (total weight : ℚ) : scaledShare amount total weight ≤ amount :=
  min_le_right _ _

/-- The scaled input of an entry is its share of the amount. -/
theorem routeInputCorrected_eq {amount : ℕ} (hamount : o.inputAmount = .fin amount) {total : ℚ}
    (htotal : 0 < total) (weight : ℚ) :
    o.routeInputCorrected (o.inputAmount.div (.fin total)) (.fin weight) =
      .fin (scaledShare amount total weight) := by
  rw [routeInputCorrected, hamount, BigNumber.div_quotient _ htotal.ne', BigNumber.times_fin,
    BigNumber.integerValue_fin, BigNumber.min_fin, scaledShare, Int.cast_min]
  rfl

/-- A path that is made from a route is created of the fills of its entries, of which there are
some. -/
theorem createPathFromRoute_eq_some {route : Route} {path : Path}
    (h : o.createPathFromRoute route = .ok (some path)) :
    ∃ fills, fills ≠ [] ∧
      o.addFills (o.inputAmount.div (BigNumber.sum (route.map RouteEntry.inputAmount))) route [] =
        .ok (some fills) ∧
      path.context = o.pathContext ∧ path.fills = fills := by
  obtain ⟨result, hresult, h⟩ := bind_eq_ok.mp h
  cases result with
  | none => cases h
  | some fills =>
    dsimp only at h
    split at h
    · cases h
    · rename_i hne
      obtain ⟨created, hcreate, hpath⟩ := bind_eq_ok.mp h
      cases hpath
      refine ⟨fills, ?_, hresult, Path.create_fields hcreate⟩
      rintro rfl
      exact hne rfl

/-- A path that is made has some fill. -/
theorem fills_ne_nil {route : Route} {path : Path}
    (h : o.createPathFromRoute route = .ok (some path)) : path.fills ≠ [] := by
  obtain ⟨fills, hne, _, _, hfills⟩ := o.createPathFromRoute_eq_some h
  rw [hfills]
  exact hne

/-- A path made from a route has one fill for each entry not passed over, in order. -/
theorem path_fills {route : Route} {path : Path}
    (h : o.createPathFromRoute route = .ok (some path)) :
    List.Forall₂
      (fun e fill =>
        o.fillFromEntry (o.inputAmount.div (BigNumber.sum (route.map RouteEntry.inputAmount))) e =
          .ok (some fill))
      route.answered path.fills := by
  obtain ⟨fills, _, hadded, _, hfills⟩ := o.createPathFromRoute_eq_some h
  obtain ⟨added, rfl, hforall⟩ := o.addFills_eq_some hadded
  rw [hfills]
  exact hforall

/-- Of a path made from a valid route: it has one fill for each used entry, in order, of the share
that the entry's input is of the amount. -/
theorem fills_of_route {amount : ℕ} (hamount : o.inputAmount = .fin amount) {route : Route}
    (hvalid : ∀ e ∈ route, e.Valid) {path : Path}
    (h : o.createPathFromRoute route = .ok (some path)) :
    path.context = o.pathContext ∧ 0 < route.total ∧
      List.Forall₂
        (fun e fill => o.FillOfEntry (.fin (scaledShare amount route.total e.input)) e fill)
        route.used path.fills := by
  obtain ⟨fills, hne, hadded, hcontext, hpathFills⟩ := o.createPathFromRoute_eq_some h
  obtain ⟨added, hfills, hforall⟩ := o.addFills_eq_ok hvalid hadded
  rw [List.nil_append] at hfills
  cases hfills
  have hused : route.used ≠ [] := by
    intro hnil
    rw [hnil, List.forall₂_nil_left_iff] at hforall
    exact hne hforall
  have htotal := Route.total_pos hvalid hused
  refine ⟨hcontext, htotal, ?_⟩
  rw [hpathFills]
  -- each used entry was scaled by the amount over the total
  have hshare : ∀ e ∈ route.used,
      o.routeInputCorrected
          (o.inputAmount.div (BigNumber.sum (route.map RouteEntry.inputAmount)))
          e.inputAmount =
        .fin (scaledShare amount route.total e.input) := by
    intro e he
    have hmem := List.mem_of_mem_filter he
    rw [Route.sum_inputAmount (fun x hx => (hvalid x hx).inputAmount_eq)
      (List.ne_nil_of_mem hmem), (hvalid e hmem).inputAmount_eq]
    exact o.routeInputCorrected_eq hamount htotal e.input
  apply ((List.forall₂_and_left _ _).mpr ⟨hshare, hforall⟩).imp
  rintro e fill ⟨hinput, hof⟩
  rwa [hinput] at hof

/-- A test of the path made from a route; false when there is none. -/
def madePath (route : Route) (check : Path → Bool) : Bool :=
  match o.createPathFromRoute route with
  | .ok (some path) => check path
  | _ => false

theorem exists_path_of_madePath (route : Route) (check : Path → Bool)
    (h : o.madePath route check = true) :
    ∃ path, o.createPathFromRoute route = .ok (some path) ∧ check path = true := by
  unfold madePath at h
  split at h
  · rename_i path hpath
    exact ⟨path, hpath, h⟩
  · cases h

end Routed

/-- With exact quotients the share is rounded up once, and is within the amount. -/
theorem scaledShare_exact (amount : ℕ) {total weight : ℚ} (htotal : 0 < total)
    (hweight : weight ≤ total) :
    scaledShare amount total weight = ceilShare amount total weight := by
  have hscale : (amount : ℚ) / total * weight = amount * weight / total := by ring
  have hle := ceilShare_le amount htotal hweight
  show min ⌈(amount : ℚ) / total * weight⌉ (amount : ℤ) = _
  rw [hscale]
  exact min_eq_left hle

/-- The fills of a route, with exact quotients. -/
theorem fills_of_route_exact {amount : ℕ} (hamount : o.inputAmount = .fin amount) {route : Route}
    (hvalid : ∀ e ∈ route, e.Valid) {path : Path}
    (h : o.createPathFromRoute route = .ok (some path)) :
    path.context = o.pathContext ∧ 0 < route.total ∧
      List.Forall₂
        (fun e fill => o.FillOfEntry (.fin (ceilShare amount route.total e.input)) e fill)
        route.used path.fills := by
  obtain ⟨hcontext, htotal, hfills⟩ := o.fills_of_route hamount hvalid h
  refine ⟨hcontext, htotal, ?_⟩
  have hshare : ∀ e ∈ route.used,
      scaledShare amount route.total e.input = ceilShare amount route.total e.input := fun e he =>
    scaledShare_exact amount htotal
      (Route.input_le_total (fun x hx => (hvalid x hx).input_nonneg) (List.mem_of_mem_filter he))
  apply ((List.forall₂_and_left _ _).mpr ⟨hshare, hfills⟩).imp
  rintro e fill ⟨heq, hof⟩
  rwa [heq] at hof

end PathOptimizer

end ZeroExApi
