/-
# ZeroExApi.GasPriceUtils — the gas price that is polled, and requests for it

`asset-swapper/utils/gas_price_utils.ts`.  A heartbeat updates the estimation again and again, and a
request that finds none updates it first.  An update fetches the price and parses the body; both may
fail.  Updates overlap: each is started at one moment and its outcome arrives at a later one, and a
request goes on some time after its update.

The body is stored without a look at its shape.  Where it has no result the known price is lost, and
where it is `null` the errors before it are forgotten.  Runs in which every body that arrives
carries a result, or is `null` while no error is counted, are as they should be, and no others
(`gasPriceSpec_iff`).
-/

import ZeroExApi.Lib.InFlight
import ZeroExApi.Lib.Transition

namespace ZeroExApi.GasPriceUtils

open ZeroExApi.Lib ZeroExApi.Lib.Transition

universe u

/-! ## Bodies and outcomes -/

/-- A property as it is read: it is missing, it is `null`, or it has a value. -/
inductive JsValue (α : Type u) where
  | undefined
  | null
  | value (a : α)
  deriving DecidableEq

/-- A body that has been parsed: `null`, of which no property can be read, or anything else with its
property `result`.  What gas prices are made of does not matter. -/
inductive Body (α : Type u) where
  | null
  | json (result : JsValue α)

/-- What comes of a request to the gas API. -/
inductive Outcome (α : Type u) where
  | networkFailure
  | unparsable
  | parsed (body : Body α)

variable {α : Type u}

/-- `=== undefined`. -/
def JsValue.isUndefined : JsValue α → Bool
  | .undefined => true
  | _ => false

/-- The result an outcome carries. -/
def Outcome.result? : Outcome α → Option α
  | .parsed (.json (.value a)) => some a
  | _ => none

/-! ## The poller -/

/-- `SwapQuoterError.NoGasPriceProvidedOrEstimated`. -/
inductive SwapQuoterError where
  | noGasPriceProvidedOrEstimated
  deriving DecidableEq

/-- The text of the error. -/
def SwapQuoterError.text : SwapQuoterError → String
  | .noGasPriceProvidedOrEstimated => "NO_GAS_PRICE_PROVIDED_OR_ESTIMATED"

/-- Who waits for an update. -/
inductive Caller where
  | heart
  | request
  deriving DecidableEq

/-- What is in flight: an update, or a request whose update has been made. -/
inductive Phase where
  | updating (caller : Caller)
  | updated
  deriving DecidableEq

/-- The fields of the poller, and what is in flight. -/
structure Poller (α : Type u) where
  gasPriceEstimation : JsValue α
  errorCount : ℕ
  calls : InFlight Phase

def MAX_ERROR_COUNT : ℕ := 5

/-- A poller before its first heartbeat. -/
def initial : Poller α := ⟨.undefined, 0, .empty⟩

namespace Poller

/-- The `catch` block of an update. -/
def catchError (s : Poller α) : Poller α × Except SwapQuoterError Unit :=
  let s := { s with errorCount := s.errorCount + 1 }
  if s.errorCount > MAX_ERROR_COUNT || s.gasPriceEstimation.isUndefined then
    ({ s with errorCount := 0 }, .error .noGasPriceProvidedOrEstimated)
  else
    (s, .ok ())

/-- `_updateGasPriceFromOracleOrThrow` from its outcome on. -/
def updateGasPriceFromOracleOrThrow (s : Poller α) :
    Outcome α → Poller α × Except SwapQuoterError Unit
  | .networkFailure | .unparsable => s.catchError
  -- the count is reset before `result` is read
  | .parsed .null => { s with errorCount := 0 }.catchError
  | .parsed (.json result) =>
    ({ s with
      errorCount := 0
      gasPriceEstimation := result }, .ok ())

end Poller

/-- What can happen next: the heart beats, a price is asked for, the outcome of an update arrives,
or a request goes on behind its update. -/
inductive Event (α : Type u) where
  | poll
  | request
  | settle (call : ℕ) (outcome : Outcome α)
  | resume (call : ℕ)

/-- One step. -/
def step (s : Poller α) : Event α → Poller α
  | .poll => { s with calls := s.calls.start (.updating .heart) }
  | .request =>
    if s.gasPriceEstimation.isUndefined then
      { s with calls := s.calls.start (.updating .request) }
    else
      s
  | .settle call outcome =>
    match s.calls.call? call with
    | some (.updating caller) =>
      let (s, thrown) := s.updateGasPriceFromOracleOrThrow outcome
      match caller, thrown with
      | .request, .ok () => { s with calls := s.calls.put call (some .updated) }
      | _, _ => { s with calls := s.calls.settle call }
    | _ => s
  | .resume call =>
    match s.calls.call? call with
    | some .updated => { s with calls := s.calls.settle call }
    | _ => s

/-- What `getGasPriceEstimationOrThrowAsync` answers at an event: at once, when its update throws,
or behind its update. -/
def answer (s : Poller α) : Event α → Option (Except SwapQuoterError (JsValue α))
  | .poll => none
  | .request => if s.gasPriceEstimation.isUndefined then none else some (.ok s.gasPriceEstimation)
  | .settle call outcome =>
    match s.calls.call? call with
    | some (.updating .request) =>
      match (s.updateGasPriceFromOracleOrThrow outcome).2 with
      | .error error => some (.error error)
      | .ok () => none
    | _ => none
  | .resume call =>
    match s.calls.call? call with
    | some .updated => some (.ok s.gasPriceEstimation)
    | _ => none

/-! ## What is claimed -/

/-- An update waits for its outcome. -/
def Poller.Updates (s : Poller α) (call : ℕ) : Prop :=
  ∃ caller, s.calls.call? call = some (.updating caller)

/-- The outcome that arrives with an event. -/
def arrives (s : Poller α) : Event α → Option (Outcome α)
  | .settle call outcome =>
    match s.calls.call? call with
    | some (.updating _) => some outcome
    | _ => none
  | _ => none

/-- The outcomes that arrive in a run. -/
def arrived (s : Poller α) (es : List (Event α)) : List (Outcome α) := observed step arrives s es

/-- The result of the latest outcome that carries one. -/
def latestResult (outcomes : List (Outcome α)) : Option α :=
  outcomes.foldl (fun latest outcome => outcome.result?.or latest) none

/-- How many outcomes without a result are the last ones. -/
def failuresInARow (outcomes : List (Outcome α)) : ℕ :=
  outcomes.foldl (fun failures outcome => if outcome.result?.isSome then 0 else failures + 1) 0

/-- An update throws at an outcome. -/
def throws (s : Poller α) (outcome : Outcome α) : Bool :=
  match (s.updateGasPriceFromOracleOrThrow outcome).2 with
  | .error _ => true
  | .ok () => false

/-- What is claimed of a run: a request is answered with the result of the latest response that
carried one, if it is not refused; a response without a result is the same as none; and where a
price is known an update throws only after more failures in a row than `MAX_ERROR_COUNT`. -/
structure GasPriceSpec (es : List (Event α)) : Prop where
  answers : ∀ past e future estimation, es = past ++ e :: future →
    answer (run step initial past) e = some (.ok estimation) →
      ∃ price, estimation = .value price ∧ latestResult (arrived initial past) = some price
  failure : ∀ past call outcome future, es = past ++ .settle call outcome :: future →
    (run step initial past).Updates call → outcome.result? = none →
      step (run step initial past) (.settle call outcome) =
          step (run step initial past) (.settle call .networkFailure) ∧
        throws (run step initial past) outcome = throws (run step initial past) .networkFailure
  patience : ∀ past call outcome future, es = past ++ .settle call outcome :: future →
    (run step initial past).Updates call → throws (run step initial past) outcome = true →
      (latestResult (arrived initial past)).isSome = true →
        MAX_ERROR_COUNT < failuresInARow (arrived initial past ++ [outcome])

/-- A body that arrives carries a result, or is `null` while no error is counted. -/
def CarriesResult (s : Poller α) (e : Event α) : Prop :=
  ∀ body, arrives s e = some (.parsed body) →
    (∃ a, body = .json (.value a)) ∨ (body = .null ∧ s.errorCount = 0)

/-! ## One update -/

/-- A failed update throws and resets the count, or counts the error; it throws if no price is
known. -/
theorem catchError_cases (s : Poller α) :
    (s.catchError = ({ s with errorCount := 0 }, .error .noGasPriceProvidedOrEstimated) ∧
        (MAX_ERROR_COUNT < s.errorCount + 1 ∨ s.gasPriceEstimation.isUndefined = true)) ∨
      (s.catchError = ({ s with errorCount := s.errorCount + 1 }, .ok ()) ∧
        s.errorCount + 1 ≤ MAX_ERROR_COUNT ∧ s.gasPriceEstimation.isUndefined = false) := by
  unfold Poller.catchError
  dsimp only
  split
  · rename_i h
    left
    simpa using h
  · rename_i h
    right
    simpa using h

/-- An update touches nothing that is in flight. -/
theorem update_calls (s : Poller α) (outcome : Outcome α) :
    (s.updateGasPriceFromOracleOrThrow outcome).1.calls = s.calls := by
  have hcatch : ∀ s : Poller α, s.catchError.1.calls = s.calls := by
    intro s
    rcases catchError_cases s with ⟨h, _⟩ | ⟨h, _⟩ <;> rw [h]
  unfold Poller.updateGasPriceFromOracleOrThrow
  split
  · exact hcatch s
  · exact hcatch s
  · exact hcatch { s with errorCount := 0 }
  · rfl

/-- What arrives is the outcome of an update. -/
theorem arrives_settle {s : Poller α} {call : ℕ} (h : s.Updates call) (outcome : Outcome α) :
    arrives s (.settle call outcome) = some outcome := by
  obtain ⟨caller, hcall⟩ := h
  simp [arrives, hcall]

theorem settle_of_arrives {s : Poller α} {e : Event α} {outcome : Outcome α}
    (h : arrives s e = some outcome) : ∃ call, e = .settle call outcome ∧ s.Updates call := by
  unfold arrives at h
  split at h
  · rename_i call o
    split at h
    · rename_i caller hcall
      obtain rfl := Option.some.inj h
      exact ⟨call, rfl, caller, hcall⟩
    · cases h
  · cases h

section Settle

variable {s : Poller α} {call : ℕ} (h : s.Updates call) (outcome : Outcome α)
include h

/-- An outcome leaves of the two fields what its update leaves of them. -/
theorem settle_fields :
    (step s (.settle call outcome)).gasPriceEstimation =
        (s.updateGasPriceFromOracleOrThrow outcome).1.gasPriceEstimation ∧
      (step s (.settle call outcome)).errorCount =
        (s.updateGasPriceFromOracleOrThrow outcome).1.errorCount := by
  obtain ⟨caller, hcall⟩ := h
  simp only [step, hcall]
  split <;> exact ⟨rfl, rfl⟩

/-- A request whose update has been made was so before, or its update has not thrown. -/
theorem updated_of_settle {n : ℕ}
    (hn : (step s (.settle call outcome)).calls.call? n = some .updated) :
    s.calls.call? n = some .updated ∨ throws s outcome = false := by
  obtain ⟨caller, hcall⟩ := h
  simp only [step, hcall] at hn
  split at hn
  · rename_i hthrown
    right
    simp [throws, hthrown]
  · left
    dsimp only at hn
    rw [update_calls] at hn
    exact (InFlight.call?_of_settle hn).2

/-- Two outcomes whose updates come to the same are the same to the poller. -/
theorem settle_congr {outcome' : Outcome α}
    (heq : s.updateGasPriceFromOracleOrThrow outcome =
      s.updateGasPriceFromOracleOrThrow outcome') :
    step s (.settle call outcome) = step s (.settle call outcome') ∧
      throws s outcome = throws s outcome' := by
  obtain ⟨caller, hcall⟩ := h
  simp only [step, throws, hcall, heq]
  exact ⟨trivial, trivial⟩

end Settle

/-! ## Runs -/

@[simp]
theorem latestResult_append (outcomes : List (Outcome α)) (outcome : Outcome α) :
    latestResult (outcomes ++ [outcome]) = outcome.result?.or (latestResult outcomes) := by
  simp [latestResult]

@[simp]
theorem failuresInARow_append (outcomes : List (Outcome α)) (outcome : Outcome α) :
    failuresInARow (outcomes ++ [outcome]) =
      if outcome.result?.isSome then 0 else failuresInARow outcomes + 1 := by
  simp [failuresInARow]

/-- A price that is known, or none. -/
def known : Option α → JsValue α
  | none => .undefined
  | some a => .value a

theorem known_isUndefined (price : Option α) : (known price).isUndefined = price.isNone := by
  cases price <;> rfl

/-- The estimation is the latest result, no more errors are counted than there were failures in a
row, and a request goes on only when a price is known. -/
structure Invariant (outcomes : List (Outcome α)) (s : Poller α) : Prop where
  estimation_eq : s.gasPriceEstimation = known (latestResult outcomes)
  errorCount_le : s.errorCount ≤ failuresInARow outcomes
  updated : ∀ n, s.calls.call? n = some .updated → (latestResult outcomes).isSome = true

theorem invariant_initial : Invariant [] (initial : Poller α) := by
  refine ⟨rfl, le_rfl, fun n hn => ?_⟩
  simp [initial] at hn

/-- Where the body that arrives is as it should be, an outcome without a result is an error. -/
theorem update_of_no_result {s : Poller α} {call : ℕ} (h : s.Updates call) {outcome : Outcome α}
    (hcarries : CarriesResult s (.settle call outcome)) (hnone : outcome.result? = none) :
    s.updateGasPriceFromOracleOrThrow outcome = s.catchError := by
  cases outcome with
  | networkFailure => rfl
  | unparsable => rfl
  | parsed body =>
    rcases hcarries body (arrives_settle h _) with ⟨a, rfl⟩ | ⟨rfl, hzero⟩
    · simp [Outcome.result?] at hnone
    · -- resetting a count of zero changes nothing
      show Poller.catchError { s with errorCount := 0 } = s.catchError
      rw [← hzero]

theorem update_of_result (s : Poller α) {outcome : Outcome α} {a : α}
    (ha : outcome.result? = some a) :
    s.updateGasPriceFromOracleOrThrow outcome =
      ({ s with errorCount := 0, gasPriceEstimation := .value a }, .ok ()) := by
  unfold Outcome.result? at ha
  split at ha
  · obtain rfl := Option.some.inj ha
    rfl
  · cases ha

/-- The invariant under an outcome. -/
theorem Invariant.settle {outcomes : List (Outcome α)} {s : Poller α} (hs : Invariant outcomes s)
    {call : ℕ} (h : s.Updates call) {outcome : Outcome α}
    (hcarries : CarriesResult s (.settle call outcome)) :
    Invariant (outcomes ++ [outcome]) (step s (.settle call outcome)) := by
  obtain ⟨hestimation, hcount⟩ := settle_fields h outcome
  rcases hresult : outcome.result? with _ | a
  · have hupdate := update_of_no_result h hcarries hresult
    rw [hupdate] at hestimation hcount
    refine ⟨?_, ?_, fun n hn => ?_⟩
    · rw [hestimation, latestResult_append, hresult, Option.none_or, ← hs.estimation_eq]
      rcases catchError_cases s with ⟨hcatch, _⟩ | ⟨hcatch, _⟩ <;> rw [hcatch]
    · rw [hcount, failuresInARow_append, hresult]
      have hle := hs.errorCount_le
      rcases catchError_cases s with ⟨hcatch, _⟩ | ⟨hcatch, _⟩ <;> rw [hcatch] <;> simp
      omega
    · rw [latestResult_append, hresult, Option.none_or]
      rcases updated_of_settle h outcome hn with hbefore | hthrown
      · exact hs.updated n hbefore
      · -- an update that fails and does not throw finds a price known
        rcases catchError_cases s with ⟨hcatch, _⟩ | ⟨_, _, hdefined⟩
        · simp [throws, hupdate, hcatch] at hthrown
        · rw [hs.estimation_eq, known_isUndefined] at hdefined
          simpa using hdefined
  · rw [update_of_result s hresult] at hestimation hcount
    refine ⟨?_, ?_, fun n _ => ?_⟩
    · rw [hestimation, latestResult_append, hresult]
      rfl
    · rw [hcount]
      exact Nat.zero_le _
    · simp [hresult]

/-- The invariant when an update is started, whoever waits for it. -/
theorem Invariant.start {outcomes : List (Outcome α)} {s : Poller α} (hs : Invariant outcomes s)
    (caller : Caller) :
    Invariant outcomes { s with calls := s.calls.start (.updating caller) } := by
  refine ⟨hs.estimation_eq, hs.errorCount_le, fun n hn => ?_⟩
  rcases InFlight.call?_of_start hn with ⟨_, hphase⟩ | hbefore
  · cases hphase
  · exact hs.updated n hbefore

/-- The invariant under any event, when the body that arrives is as it should be. -/
theorem Invariant.step {outcomes : List (Outcome α)} {s : Poller α} (hs : Invariant outcomes s)
    {e : Event α} (hcarries : CarriesResult s e) :
    Invariant (outcomes ++ (arrives s e).toList) (step s e) := by
  rcases harrives : arrives s e with _ | outcome
  · simp only [Option.toList_none, List.append_nil]
    cases e with
    | poll => exact hs.start .heart
    | request =>
      show Invariant outcomes (if s.gasPriceEstimation.isUndefined then _ else s)
      split
      · exact hs.start .request
      · exact hs
    | settle call outcome =>
      -- nothing arrives, so the event changes nothing
      simp only [GasPriceUtils.step]
      split
      · rename_i caller hcall
        simp [arrives, hcall] at harrives
      · exact hs
    | resume call =>
      simp only [GasPriceUtils.step]
      split
      · exact ⟨hs.estimation_eq, hs.errorCount_le,
          fun n hn => hs.updated n (InFlight.call?_of_settle hn).2⟩
      · exact hs
  · obtain ⟨call, rfl, hupdates⟩ := settle_of_arrives harrives
    exact hs.settle hupdates hcarries

theorem invariant_run {es : List (Event α)} (h : AlongRun step CarriesResult initial es) :
    Invariant (arrived initial es) (run step (initial : Poller α) es) :=
  observed_invariant (I := Invariant) (fun _ _ _ hs hcarries => hs.step hcarries)
    invariant_initial h

/-- Without an estimation no error is counted. -/
def NoneCounted (s : Poller α) : Prop :=
  s.gasPriceEstimation.isUndefined = true → s.errorCount = 0

theorem noneCounted_catchError (s : Poller α) : NoneCounted s.catchError.1 := by
  intro hundefined
  rcases catchError_cases s with ⟨h, _⟩ | ⟨h, _, hdefined⟩
  · rw [h]
  · rw [h] at hundefined
    simp [hdefined] at hundefined

theorem noneCounted_step (s : Poller α) (e : Event α) (hs : NoneCounted s) :
    NoneCounted (step s e) := by
  rcases harrives : arrives s e with _ | outcome
  · cases e with
    | poll => exact hs
    | request =>
      simp only [step]
      split <;> exact hs
    | settle call outcome =>
      simp only [step]
      split
      · rename_i caller hcall
        simp [arrives, hcall] at harrives
      · exact hs
    | resume call =>
      simp only [step]
      split <;> exact hs
  · obtain ⟨call, rfl, hupdates⟩ := settle_of_arrives harrives
    obtain ⟨hestimation, hcount⟩ := settle_fields hupdates outcome
    unfold NoneCounted
    rw [hestimation, hcount]
    cases outcome with
    | networkFailure => exact noneCounted_catchError s
    | unparsable => exact noneCounted_catchError s
    | parsed body =>
      cases body with
      | null => exact noneCounted_catchError { s with errorCount := 0 }
      | json result => exact fun _ => rfl

/-- In every run. -/
theorem noneCounted_run (es : List (Event α)) :
    NoneCounted (run step (initial : Poller α) es) :=
  run_invariant noneCounted_step (fun _ => rfl) es

/-! ## The poller -/

/-- What a request is answered with is the estimation, and there is one or the request goes on
behind its update. -/
theorem answer_eq {s : Poller α} {e : Event α} {estimation : JsValue α}
    (h : answer s e = some (.ok estimation)) :
    estimation = s.gasPriceEstimation ∧
      (estimation.isUndefined = false ∨ ∃ n, s.calls.call? n = some .updated) := by
  cases e with
  | poll => cases h
  | request =>
    simp only [answer] at h
    split at h
    · cases h
    · rename_i hdefined
      cases h
      exact ⟨rfl, .inl (by simpa using hdefined)⟩
  | settle call outcome =>
    simp only [answer] at h
    split at h
    · split at h <;> cases h
    · cases h
  | resume call =>
    simp only [answer] at h
    split at h
    · rename_i hcall
      cases h
      exact ⟨rfl, .inr ⟨call, hcall⟩⟩
    · cases h

/-- A body that is stored resets the count without throwing, so it is not the same as a failure. -/
theorem json_differs (s : Poller α) {call : ℕ} (h : s.Updates call) (result : JsValue α) :
    ¬ (step s (.settle call (.parsed (.json result))) = step s (.settle call .networkFailure) ∧
      throws s (.parsed (.json result)) = throws s .networkFailure) := by
  rintro ⟨hstep, hthrows⟩
  -- a failure throws or leaves a count above zero
  have hcount := congrArg Poller.errorCount hstep
  rw [(settle_fields h _).2, (settle_fields h _).2] at hcount
  change 0 = s.catchError.1.errorCount at hcount
  rcases catchError_cases s with ⟨hcatch, _⟩ | ⟨hcatch, _⟩
  · simp [throws, Poller.updateGasPriceFromOracleOrThrow, hcatch] at hthrows
  · rw [hcatch] at hcount
    simp at hcount

/-- A `null` body is the same as a failure only while no error is counted. -/
theorem errorCount_of_null {s : Poller α} {call : ℕ} (h : s.Updates call)
    (hcount : NoneCounted s)
    (hsame : step s (.settle call (.parsed .null)) = step s (.settle call .networkFailure)) :
    s.errorCount = 0 := by
  by_contra hne
  have hdefined : s.gasPriceEstimation.isUndefined = false := by
    by_contra hundefined
    exact hne (hcount (by simpa using hundefined))
  have hcounts := congrArg Poller.errorCount hsame
  rw [(settle_fields h _).2, (settle_fields h _).2] at hcounts
  -- behind `null` exactly one error is counted, whatever there was before
  have hnull : s.updateGasPriceFromOracleOrThrow (.parsed .null) =
      ({ s with errorCount := 1 }, .ok ()) := by
    simp [Poller.updateGasPriceFromOracleOrThrow, Poller.catchError, hdefined, MAX_ERROR_COUNT]
  rw [hnull] at hcounts
  change 1 = s.catchError.1.errorCount at hcounts
  rcases catchError_cases s with ⟨hcatch, _⟩ | ⟨hcatch, _⟩
  · rw [hcatch] at hcounts
    simp at hcounts
  · rw [hcatch] at hcounts
    simp at hcounts
    omega

/-- For every run of polls and requests, whatever comes of them and however they overlap: it is as
claimed exactly if every body that arrives carries a result, or is `null` while no error is
counted. -/
theorem gasPriceSpec_iff (es : List (Event α)) :
    GasPriceSpec es ↔ AlongRun step CarriesResult initial es := by
  constructor
  · intro h
    rw [alongRun_iff_split]
    intro past e future hes body hbody
    obtain ⟨call, rfl, hupdates⟩ := settle_of_arrives hbody
    have hfailure := h.failure past call (.parsed body) future hes hupdates
    rcases body with _ | result
    · exact .inr ⟨rfl,
        errorCount_of_null hupdates (noneCounted_run past) (hfailure rfl).1⟩
    · rcases result with _ | _ | a
      · exact absurd (hfailure rfl) (json_differs _ hupdates _)
      · exact absurd (hfailure rfl) (json_differs _ hupdates _)
      · exact .inl ⟨a, rfl⟩
  · intro h
    -- the invariant holds wherever the run is looked at
    have hsplit := (alongRun_iff_split _ _ _ _).mp h
    have hinv : ∀ past future, es = past ++ future →
        Invariant (arrived initial past) (run step (initial : Poller α) past) := by
      rintro past future rfl
      exact invariant_run ((alongRun_append _ _ _ _ _).mp h).1
    refine ⟨?_, ?_, ?_⟩
    · intro past e future estimation hes hanswer
      have hpast := hinv past (e :: future) hes
      obtain ⟨rfl, hknown⟩ := answer_eq hanswer
      have hsome : (latestResult (arrived (initial : Poller α) past)).isSome = true := by
        rcases hknown with hdefined | ⟨n, hn⟩
        · rw [hpast.estimation_eq, known_isUndefined] at hdefined
          simpa using hdefined
        · exact hpast.updated n hn
      obtain ⟨price, hprice⟩ := Option.isSome_iff_exists.mp hsome
      refine ⟨price, ?_, hprice⟩
      rw [hpast.estimation_eq, hprice]
      rfl
    · intro past call outcome future hes hupdates hnone
      exact settle_congr hupdates outcome
        (update_of_no_result hupdates (hsplit past _ future hes) hnone)
    · intro past call outcome future hes hupdates hthrows hknown
      have hpast := hinv past (.settle call outcome :: future) hes
      rcases hresult : outcome.result? with _ | a
      · have hupdate := update_of_no_result hupdates (hsplit past _ future hes) hresult
        rw [failuresInARow_append, hresult]
        have hle := hpast.errorCount_le
        rcases catchError_cases (run step (initial : Poller α) past) with
          ⟨_, hmany | hundefined⟩ | ⟨hcatch, _⟩
        · simp
          omega
        · rw [hpast.estimation_eq, known_isUndefined] at hundefined
          simp [Option.isNone_iff_eq_none.mp hundefined] at hknown
        · simp [throws, hupdate, hcatch] at hthrows
      · -- a result that is stored does not throw
        simp [throws, update_of_result _ hresult] at hthrows

/-! ### A body without a result -/

/-- A price is polled, then a body without a result, and a price is asked for. -/
def resultMissing : List (Event ℕ) :=
  [.poll, .settle 0 (.parsed (.json (.value 30))), .poll,
    .settle 1 (.parsed (.json .undefined)), .request,
    .settle 2 (.parsed (.json .undefined)), .resume 2]

/-- The known price is lost, and the request is answered with `undefined`. -/
theorem resultMissing_loses_price :
    (run step initial (resultMissing.take 4)).gasPriceEstimation = .undefined ∧
      answer (run step initial resultMissing.dropLast) (.resume 2) = some (.ok .undefined) ∧
      ¬ GasPriceSpec resultMissing := by
  refine ⟨rfl, rfl, fun h => ?_⟩
  obtain ⟨price, hprice, _⟩ := h.answers resultMissing.dropLast (.resume 2) [] .undefined rfl rfl
  cases hprice

end ZeroExApi.GasPriceUtils
