/-
# ZeroExApi.PoolsCache — the pair caches of the market-operation utils, and when they refresh

The two abstract caches of `pools_cache/` share one shape: a dictionary from a pair of tokens to a
value with an expiry, a test of freshness, and an asynchronous `_getAndSaveFresh…ForPairAsync` that
answers from the dictionary or awaits a fetch and stores what it brings.  Here that shape is one
transition system over a moving clock, in which fetches succeed, fail or stay pending for as long as
the run likes.  What the classes differ in is a `Policy`: the dictionary key, and the condition
under which the loader fetches.  `AbstractPoolsCache` (`pools_cache.ts`) fetches what is expired;
`SwapInfoCache` (`pair_swaps_cache.ts`) compares the expiry with the clock the other way round.

The main results read the refresh contract of a run against the fetch condition:
`CacheContract` holds of every run under the first policy, and under the second exactly of the runs
whose calls all find no entry or one that expires at that very millisecond.

The race of `getFreshPoolsForPairAsync` with a timer decides only what that wrapper answers; it
neither cancels the fetch nor changes the dictionary, and its one caller drops the answer.  The
dictionary of the second class is a plain object whose keys are JSON arrays of two strings, so a key
is the pair itself.
-/

import Mathlib.Algebra.Order.Group.Nat
import Mathlib.Logic.Function.Basic
import ZeroExApi.Lib.Transition

namespace ZeroExApi.PoolsCache

open ZeroExApi.Lib.Transition

/-! ## The caches as one transition system -/

/-- A dictionary entry: what was fetched and the clock value from which it is expired. -/
structure CacheValue (α : Type) where
  expiresAt : ℕ
  value : α
  deriving DecidableEq

/-- What a cache class fixes: its dictionary keys, when its loader fetches, and the lifetime of an
entry. -/
structure Policy (κ α : Type) where
  getKey : String → String → κ
  mustFetch : ℕ → Option (CacheValue α) → Bool
  cacheTimeMs : ℕ
  cacheTimeMs_pos : 0 < cacheTimeMs

/-- A cache at some moment: the clock `Date.now()`, the dictionary, and the calls that await a
fetch, each under a number of its own with the key it will store to. -/
structure State (κ α : Type) where
  now : ℕ
  cache : κ → Option (CacheValue α)
  fetches : ℕ → Option κ
  nextFetch : ℕ

/-- What a call of the loader does: answer at once, or await fetch number `fetch`. -/
inductive Outcome (α : Type) where
  | returned (value : α)
  | awaiting (fetch : ℕ)
  deriving DecidableEq

/-- The events of a run. -/
inductive Event (α : Type) where
  | clock (ms : ℕ)
  | lookup (takerToken makerToken : String)
  | call (takerToken makerToken : String)
  | refresh (takerToken makerToken : String)
  | topPool (takerToken makerToken : String) (value : α)
  | fetched (fetch : ℕ) (value : α)
  | failed (fetch : ℕ)

variable {κ α : Type}

/-- A new cache: nothing stored, nothing pending. -/
def State.init (now : ℕ) : State κ α :=
  { now := now, cache := fun _ => none, fetches := fun _ => none, nextFetch := 0 }

/-- `_isExpired`. -/
def isExpired (now : ℕ) (value : CacheValue α) : Bool := decide (now ≥ value.expiresAt)

/-- `getCachedSwapInfoForPair` with `ignoreExpired = false`; a stored value that is not expired. -/
def getCached (s : State κ α) (key : κ) : Option α :=
  match s.cache key with
  | none => none
  | some value => if isExpired s.now value then none else some value.value

/-- `isFresh`. -/
def isFresh (s : State κ α) (key : κ) : Bool := (getCached s key).isSome

theorem isFresh_eq_true_iff (s : State κ α) (key : κ) :
    isFresh s key = true ↔ ∃ value, s.cache key = some value ∧ s.now < value.expiresAt := by
  unfold isFresh getCached
  cases hc : s.cache key with
  | none => simp
  | some value =>
    by_cases hexp : value.expiresAt ≤ s.now
    · simp [isExpired, hexp]
    · simp [isExpired, hexp, not_le.mp hexp]

theorem isFresh_eq_false_iff (s : State κ α) (key : κ) :
    isFresh s key = false ↔ ∀ value, s.cache key = some value → value.expiresAt ≤ s.now := by
  rw [← Bool.not_eq_true, isFresh_eq_true_iff]
  simp only [not_exists, not_and, not_lt]

/-- The part of `_getAndSaveFresh…ForPairAsync` before its `await`: start a fetch, or answer from
the dictionary. -/
def getAndSaveFreshForPair (P : Policy κ α) (s : State κ α) (key : κ) :
    State κ α × Option (Outcome α) :=
  if P.mustFetch s.now (s.cache key) then
    ({ s with fetches := Function.update s.fetches s.nextFetch (some key),
              nextFetch := s.nextFetch + 1 },
     some (.awaiting s.nextFetch))
  else
    (s, (s.cache key).map fun value => .returned value.value)

/-- A call that fetches registers its key under the next fetch number. -/
theorem getAndSaveFreshForPair_of_fetch {P : Policy κ α} {s : State κ α} {key : κ}
    (h : P.mustFetch s.now (s.cache key) = true) :
    getAndSaveFreshForPair P s key =
      ({ s with fetches := Function.update s.fetches s.nextFetch (some key),
                nextFetch := s.nextFetch + 1 },
       some (.awaiting s.nextFetch)) := by
  simp [getAndSaveFreshForPair, h]

/-- A call that does not fetch changes nothing and answers the stored value. -/
theorem getAndSaveFreshForPair_of_cached {P : Policy κ α} {s : State κ α} {key : κ}
    (h : P.mustFetch s.now (s.cache key) = false) :
    getAndSaveFreshForPair P s key = (s, (s.cache key).map fun value => .returned value.value) := by
  simp [getAndSaveFreshForPair, h]

/-- A call is right when a pair that is not fresh makes it start a fetch for that pair, and a fresh
pair makes it answer what is cached and do nothing else. -/
def CallContract (P : Policy κ α) (s : State κ α) (key : κ) : Prop :=
  (isFresh s key = false →
    (getAndSaveFreshForPair P s key).2 = some (.awaiting s.nextFetch) ∧
      (getAndSaveFreshForPair P s key).1.fetches s.nextFetch = some key) ∧
  (isFresh s key = true →
    ∃ value, getCached s key = some value ∧
      getAndSaveFreshForPair P s key = (s, some (.returned value)))

/-- The call contract holds exactly when the fetch condition is the negation of freshness at the
key. -/
theorem callContract_iff (P : Policy κ α) (s : State κ α) (key : κ) :
    CallContract P s key ↔ P.mustFetch s.now (s.cache key) = !isFresh s key := by
  cases hfresh : isFresh s key with
  | false =>
    cases hfetch : P.mustFetch s.now (s.cache key) with
    | false =>
      have hnot : ∀ n, (getAndSaveFreshForPair P s key).2 ≠ some (.awaiting n) := by
        intro n
        rw [getAndSaveFreshForPair_of_cached hfetch]
        cases s.cache key with
        | none => simp
        | some value => simp
      simp [CallContract, hfresh, hnot]
    | true => simp [CallContract, hfresh, getAndSaveFreshForPair_of_fetch hfetch]
  | true =>
    obtain ⟨value, hcache, hahead⟩ := (isFresh_eq_true_iff s key).mp hfresh
    have hget : getCached s key = some value.value := by
      simp [getCached, hcache, isExpired, hahead]
    cases hfetch : P.mustFetch s.now (s.cache key) with
    | false =>
      simp [CallContract, hfresh, hget, getAndSaveFreshForPair_of_cached hfetch, hcache]
    | true =>
      simp [CallContract, hfresh, getAndSaveFreshForPair_of_fetch hfetch]

/-- `n` is pending under `key` and was numbered before the next fetch. -/
def Pending (n : ℕ) (key : κ) (s : State κ α) : Prop := s.fetches n = some key ∧ n < s.nextFetch

theorem pending_start {n : ℕ} {key : κ} {s : State κ α} (h : Pending n key s) (key' : κ) :
    Pending n key { s with fetches := Function.update s.fetches s.nextFetch (some key'),
                           nextFetch := s.nextFetch + 1 } := by
  obtain ⟨hkey, hlt⟩ := h
  refine ⟨?_, Nat.lt_succ_of_lt hlt⟩
  simpa [Function.update_of_ne hlt.ne] using hkey

theorem pending_getAndSaveFreshForPair {P : Policy κ α} {n : ℕ} {key : κ} {s : State κ α}
    (h : Pending n key s) (key' : κ) : Pending n key (getAndSaveFreshForPair P s key').1 := by
  cases hfetch : P.mustFetch s.now (s.cache key') with
  | false =>
    rw [getAndSaveFreshForPair_of_cached hfetch]
    exact h
  | true =>
    rw [getAndSaveFreshForPair_of_fetch hfetch]
    exact pending_start h key'

/-! ## Stores and events -/

variable [DecidableEq κ]

/-- `_cacheSwapInfoForPair` / `_cachePoolsForPair`. -/
def cacheForPair (s : State κ α) (key : κ) (value : α) (expiresAt : ℕ) : State κ α :=
  { s with cache := Function.update s.cache key (some ⟨expiresAt, value⟩) }

/-- The part after the `await`, when the fetch brings a value: store it with a new expiry and
answer what the dictionary now holds. -/
def onFetched (P : Policy κ α) (s : State κ α) (fetch : ℕ) (value : α) : State κ α × Option α :=
  match s.fetches fetch with
  | none => (s, none)
  | some key =>
    let stored := cacheForPair s key value (s.now + P.cacheTimeMs)
    ({ stored with fetches := Function.update s.fetches fetch none },
     (stored.cache key).map CacheValue.value)

/-- A rejected fetch leaves the dictionary alone. -/
def onFailed (s : State κ α) (fetch : ℕ) : State κ α :=
  { s with fetches := Function.update s.fetches fetch none }

/-- `_refreshPoolCacheIfRequiredAsync` for one cache: only a pair that is not fresh is asked for. -/
def refreshPoolCacheIfRequired (P : Policy κ α) (s : State κ α) (key : κ) : State κ α :=
  if isFresh s key then s else (getAndSaveFreshForPair P s key).1

/-- One event of a run.  `topPool` is the store `_loadTopPoolsAsync` makes for a pair of its own
accord. -/
def step (P : Policy κ α) (s : State κ α) : Event α → State κ α
  | .clock ms => { s with now := s.now + ms }
  | .lookup _ _ => s
  | .call t m => (getAndSaveFreshForPair P s (P.getKey t m)).1
  | .refresh t m => refreshPoolCacheIfRequired P s (P.getKey t m)
  | .topPool t m value => cacheForPair s (P.getKey t m) value (s.now + P.cacheTimeMs)
  | .fetched fetch value => (onFetched P s fetch value).1
  | .failed fetch => onFailed s fetch

/-! ## The two policies -/

/-- `DEFAULT_CACHE_TIME_MS` of both files: thirty minutes. -/
def DEFAULT_CACHE_TIME_MS : ℕ := 60 * 60 / 2 * 1000

/-- `SwapInfoCache`: the loader fetches when
`value === undefined || value.expiresAt >= Date.now()`. -/
def swapInfoCache (cacheTimeMs : ℕ) (h : 0 < cacheTimeMs) : Policy (String × String) α where
  getKey takerToken makerToken := (takerToken, makerToken)
  mustFetch now
    | none => true
    | some value => decide (value.expiresAt ≥ now)
  cacheTimeMs := cacheTimeMs
  cacheTimeMs_pos := h

/-- `AbstractPoolsCache`: the loader fetches what `_isExpired` says is expired. -/
def abstractPoolsCache (cacheTimeMs : ℕ) (h : 0 < cacheTimeMs) : Policy String α where
  getKey takerToken makerToken := takerToken ++ "-" ++ makerToken
  mustFetch now
    | none => true
    | some value => isExpired now value
  cacheTimeMs := cacheTimeMs
  cacheTimeMs_pos := h

/-! ## The refresh contract -/

/-- What each event of a run has to do: direct calls and the calls a refresh makes are right, and a
fetch that brings a value answers it and stores it with an expiry that lies ahead. -/
def EventContract (P : Policy κ α) (s : State κ α) : Event α → Prop
  | .call t m => CallContract P s (P.getKey t m)
  | .refresh t m => isFresh s (P.getKey t m) = false → CallContract P s (P.getKey t m)
  | .fetched fetch value =>
    ∀ key, s.fetches fetch = some key →
      (onFetched P s fetch value).2 = some value ∧
        ∃ stored, (onFetched P s fetch value).1.cache key = some stored ∧
          stored.value = value ∧ s.now < stored.expiresAt
  | _ => True

/-- An event that settles fetch number `n`. -/
def Settles (n : ℕ) : Event α → Prop
  | .fetched fetch _ => fetch = n
  | .failed fetch => fetch = n
  | _ => False

/-- The contract of a whole run: every event meets its own, and a refresh that meets an expired
entry starts a fetch whose success, whenever it comes, replaces the entry by the fetched value
under a later expiry. -/
structure CacheContract (P : Policy κ α) (s : State κ α) (es : List (Event α)) : Prop where
  events : AlongRun (step P) (EventContract P) s es
  replaced : ∀ past t m waiting value future old,
    es = past ++ .refresh t m ::
      (waiting ++ .fetched (run (step P) s past).nextFetch value :: future) →
    (run (step P) s past).cache (P.getKey t m) = some old →
    isExpired (run (step P) s past).now old = true →
    (∀ e ∈ waiting, ¬ Settles (run (step P) s past).nextFetch e) →
    ∃ new,
      (run (step P) s (past ++ .refresh t m ::
        (waiting ++ [.fetched (run (step P) s past).nextFetch value]))).cache (P.getKey t m) =
          some new ∧
      new.value = value ∧ old.expiresAt < new.expiresAt

/-! ## What one step can do -/

/-- A fetch that is pending under a key stores what it brings there, ahead of the clock. -/
theorem onFetched_of_pending {P : Policy κ α} {s : State κ α} {fetch : ℕ} {key : κ}
    (h : s.fetches fetch = some key) (value : α) :
    (onFetched P s fetch value).2 = some value ∧
      (onFetched P s fetch value).1.cache key = some ⟨s.now + P.cacheTimeMs, value⟩ := by
  simp [onFetched, h, cacheForPair]

theorem eventContract_fetched (P : Policy κ α) (s : State κ α) (fetch : ℕ) (value : α) :
    EventContract P s (.fetched fetch value) := by
  intro key hkey
  obtain ⟨hanswer, hstore⟩ := onFetched_of_pending (P := P) hkey value
  refine ⟨hanswer, _, hstore, rfl, ?_⟩
  have hpos := P.cacheTimeMs_pos
  show s.now < s.now + P.cacheTimeMs
  omega

/-- No step turns the clock back. -/
theorem now_le_step (P : Policy κ α) (s : State κ α) (e : Event α) : s.now ≤ (step P s e).now := by
  cases e with
  | clock ms => exact Nat.le_add_right _ _
  | lookup t m => exact le_rfl
  | call t m =>
    simp only [step, getAndSaveFreshForPair]
    split <;> exact le_rfl
  | refresh t m =>
    simp only [step, refreshPoolCacheIfRequired, getAndSaveFreshForPair]
    split
    · exact le_rfl
    · split <;> exact le_rfl
  | topPool t m value => exact le_rfl
  | fetched fetch value =>
    simp only [step, onFetched]
    split <;> exact le_rfl
  | failed fetch => exact le_rfl

/-- A pending fetch stays pending through every event that does not settle it. -/
theorem pending_step {P : Policy κ α} {n : ℕ} {key : κ} {s : State κ α} {e : Event α}
    (h : Pending n key s) (he : ¬ Settles n e) : Pending n key (step P s e) := by
  cases e with
  | clock ms => exact h
  | lookup t m => exact h
  | call t m => exact pending_getAndSaveFreshForPair h _
  | refresh t m =>
    simp only [step, refreshPoolCacheIfRequired]
    split
    · exact h
    · exact pending_getAndSaveFreshForPair h _
  | topPool t m value => exact h
  | fetched fetch value =>
    have hne : n ≠ fetch := fun heq => he heq.symm
    simp only [step, onFetched]
    split
    · exact h
    · exact ⟨by simpa [Function.update_of_ne hne] using h.1, h.2⟩
  | failed fetch =>
    have hne : n ≠ fetch := fun heq => he heq.symm
    exact ⟨by simpa [step, onFailed, Function.update_of_ne hne] using h.1, h.2⟩

/-- While a fetch waits it stays pending and the clock only moves on. -/
theorem pending_run {P : Policy κ α} {n : ℕ} {key : κ} (waiting : List (Event α)) {s : State κ α}
    (h : Pending n key s) (hw : ∀ e ∈ waiting, ¬ Settles n e) :
    Pending n key (run (step P) s waiting) ∧ s.now ≤ (run (step P) s waiting).now := by
  induction waiting generalizing s with
  | nil => exact ⟨h, le_rfl⟩
  | cons e waiting ih =>
    have hstep := pending_step (P := P) h (hw e List.mem_cons_self)
    obtain ⟨hpend, hnow⟩ := ih hstep (fun e' he' => hw e' (List.mem_cons_of_mem e he'))
    exact ⟨hpend, (now_le_step P s e).trans hnow⟩

/-! ## The contract of runs -/

/-- A refresh whose call is right, made at an expired entry, has the entry replaced by its fetch. -/
theorem refresh_replaces {P : Policy κ α} {s : State κ α} {t m : String} {old : CacheValue α}
    (hcall : isFresh s (P.getKey t m) = false → CallContract P s (P.getKey t m))
    (hold : s.cache (P.getKey t m) = some old) (hexp : isExpired s.now old = true)
    (waiting : List (Event α)) (hw : ∀ e ∈ waiting, ¬ Settles s.nextFetch e) (value : α) :
    ∃ new,
      (run (step P) s (.refresh t m :: (waiting ++ [.fetched s.nextFetch value]))).cache
          (P.getKey t m) = some new ∧
        new.value = value ∧ old.expiresAt < new.expiresAt := by
  have hle : old.expiresAt ≤ s.now := of_decide_eq_true hexp
  have hstale : isFresh s (P.getKey t m) = false := by
    rw [isFresh_eq_false_iff]
    intro v hv
    rw [hold] at hv
    cases hv
    exact hle
  -- the entry is stale, so a call that is right fetches
  have hfetch : P.mustFetch s.now (s.cache (P.getKey t m)) = true := by
    simpa [hstale] using (callContract_iff P s _).mp (hcall hstale)
  have hstep : step P s (.refresh t m) =
      { s with fetches := Function.update s.fetches s.nextFetch (some (P.getKey t m)),
               nextFetch := s.nextFetch + 1 } := by
    simp [step, refreshPoolCacheIfRequired, hstale, getAndSaveFreshForPair_of_fetch hfetch]
  have hpend : Pending s.nextFetch (P.getKey t m) (step P s (.refresh t m)) := by
    rw [hstep]
    exact ⟨by simp, Nat.lt_succ_self _⟩
  obtain ⟨⟨hkey, -⟩, hnow⟩ := pending_run (P := P) waiting hpend hw
  rw [hstep] at hnow
  refine ⟨⟨(run (step P) (step P s (.refresh t m)) waiting).now + P.cacheTimeMs, value⟩, ?_, rfl,
    ?_⟩
  · rw [run_cons, run_append, run_cons, run_nil]
    exact (onFetched_of_pending (P := P) hkey value).2
  · -- the clock only moves on, and the lifetime is positive
    have hpos := P.cacheTimeMs_pos
    have hnow' : s.now ≤ (run (step P) (step P s (.refresh t m)) waiting).now := by
      rw [hstep]
      exact hnow
    show old.expiresAt < _ + P.cacheTimeMs
    omega

/-- The contract of a run is the contract of its events; the replacement of expired entries
follows. -/
theorem cacheContract_iff_events (P : Policy κ α) (s : State κ α) (es : List (Event α)) :
    CacheContract P s es ↔ AlongRun (step P) (EventContract P) s es := by
  constructor
  · exact CacheContract.events
  · intro hevents
    refine ⟨hevents, ?_⟩
    intro past t m waiting value future old hsplit hold hexp hw
    have hcall := (alongRun_iff_split _ _ _ _).mp hevents past _ _ hsplit
    rw [run_append]
    exact refresh_replaces hcall hold hexp waiting hw value

/-- A call finds no entry, or one that expires at this very millisecond. -/
def MissingOrAtExpiry (s : State κ α) (key : κ) : Prop :=
  s.cache key = none ∨ ∃ value, s.cache key = some value ∧ value.expiresAt = s.now

/-- Every call of the event, direct or made by a refresh, finds no entry or one that expires at
this very millisecond. -/
def CallsMissOrAtExpiry (P : Policy κ α) (s : State κ α) : Event α → Prop
  | .call t m => MissingOrAtExpiry s (P.getKey t m)
  | .refresh t m => isFresh s (P.getKey t m) = false → MissingOrAtExpiry s (P.getKey t m)
  | _ => True

theorem swapInfoCache_callContract_iff (cacheTimeMs : ℕ) (h : 0 < cacheTimeMs)
    (s : State (String × String) α) (key : String × String) :
    CallContract (swapInfoCache cacheTimeMs h) s key ↔ MissingOrAtExpiry s key := by
  rw [callContract_iff]
  unfold MissingOrAtExpiry
  cases hc : s.cache key with
  | none =>
    have hstale : isFresh s key = false := by simp [isFresh_eq_false_iff, hc]
    simp [swapInfoCache, hstale]
  | some value =>
    by_cases hahead : s.now < value.expiresAt
    · have hfresh : isFresh s key = true := (isFresh_eq_true_iff s key).mpr ⟨value, hc, hahead⟩
      simp [swapInfoCache, hfresh]
      omega
    · have hstale : isFresh s key = false := by
        simpa [isFresh_eq_false_iff, hc] using hahead
      simp [swapInfoCache, hstale]
      omega

/-- `SwapInfoCache` meets the refresh contract on exactly the runs whose calls all find no entry or
one that expires at that millisecond: the loader's comparison is turned round, so a fresh entry is
fetched again and an expired one is answered for ever. -/
theorem swapInfoCache_contract_iff (cacheTimeMs : ℕ) (h : 0 < cacheTimeMs)
    (s : State (String × String) α) (es : List (Event α)) :
    CacheContract (swapInfoCache cacheTimeMs h) s es ↔
      AlongRun (step (swapInfoCache cacheTimeMs h))
        (CallsMissOrAtExpiry (swapInfoCache cacheTimeMs h)) s es := by
  rw [cacheContract_iff_events]
  refine alongRun_congr (I := fun _ => True) (fun _ _ _ => trivial) ?_ trivial es
  intro s e _
  cases e with
  | call t m => exact swapInfoCache_callContract_iff cacheTimeMs h s _
  | refresh t m => exact imp_congr_right fun _ => swapInfoCache_callContract_iff cacheTimeMs h s _
  | fetched fetch value => exact iff_of_true (eventContract_fetched _ s fetch value) trivial
  | clock ms => exact Iff.rfl
  | lookup t m => exact Iff.rfl
  | topPool t m value => exact Iff.rfl
  | failed fetch => exact Iff.rfl

/-- An entry loaded once and then left to expire: the refresh that follows starts no fetch, though
the pair is not fresh. -/
theorem swapInfoCache_keeps_expired :
    ¬ CacheContract (swapInfoCache DEFAULT_CACHE_TIME_MS (by decide)) (State.init 0)
      [Event.call "WETH" "DAI", .fetched 0 (1 : ℕ), .clock (DEFAULT_CACHE_TIME_MS + 1),
        .refresh "WETH" "DAI"] := by
  intro hrun
  obtain ⟨-, -, -, hrefresh, -⟩ := hrun.events
  have hcall := (hrefresh (by decide)).1 (by decide)
  exact absurd hcall.1 (by decide)

/-- One such run: the first call misses, the second comes exactly when the entry expires. -/
theorem swapInfoCache_contract_at_expiry :
    CacheContract (swapInfoCache 5 (by decide)) (State.init 0)
      [Event.call "WETH" "DAI", .fetched 0 (1 : ℕ), .clock 5, .refresh "WETH" "DAI"] :=
  (swapInfoCache_contract_iff 5 (by decide) _ _).mpr
    ⟨.inl rfl, trivial, trivial, fun _ => .inr ⟨⟨5, 1⟩, rfl, rfl⟩, trivial⟩

/-- `AbstractPoolsCache` meets the refresh contract on every run. -/
theorem abstractPoolsCache_contract (cacheTimeMs : ℕ) (h : 0 < cacheTimeMs)
    (s : State String α) (es : List (Event α)) :
    CacheContract (abstractPoolsCache cacheTimeMs h) s es := by
  have hcall : ∀ (s : State String α) key,
      CallContract (abstractPoolsCache cacheTimeMs h) s key := by
    intro s key
    rw [callContract_iff]
    cases hc : s.cache key with
    | none =>
      have hstale : isFresh s key = false := by simp [isFresh_eq_false_iff, hc]
      simp [abstractPoolsCache, hstale]
    | some value =>
      have hfresh : isFresh s key = !isExpired s.now value := by
        simp only [isFresh, getCached, hc]
        cases isExpired s.now value <;> rfl
      simp [abstractPoolsCache, hfresh]
  rw [cacheContract_iff_events, alongRun_iff_split]
  intro past e future _
  cases e with
  | call t m => exact hcall _ _
  | refresh t m => exact fun _ => hcall _ _
  | fetched fetch value => exact eventContract_fetched _ _ fetch value
  | clock ms => trivial
  | lookup t m => trivial
  | topPool t m value => trivial
  | failed fetch => trivial

end ZeroExApi.PoolsCache
