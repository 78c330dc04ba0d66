/-
# ZeroExApi.ResultCache — results of an asynchronous function, kept for a while

`createResultCache` of `utils/result_cache.ts`.  A call reads what is stored for its argument, and
unless that is a fresh result it calls the function; it stores what that produces, and falls back to
what it had read when the function fails.  Calls overlap: each call of the function is started at
one moment and settles at a later one.

Whether a result is there is asked of its truth value.  So a result such as `0` or `""` is stored
and never used, and calls that overlap store in the order in which they are settled.  A run is as it
should be exactly if for each argument the function succeeds in the order it was called, and no
argument is asked for while its latest result is fresh and falsy (`resultCacheSpec_iff`).

The dictionary is an object: what it inherits is no entry, and `__proto__` is taken for a key like
any other.
-/

import ZeroExApi.Lib.InFlight
import ZeroExApi.Lib.JsMap
import ZeroExApi.Lib.Transition
import Mathlib.Data.List.Induction
import Mathlib.Data.PNat.Notation
import Mathlib.Data.PNat.Defs

namespace ZeroExApi.ResultCache

open ZeroExApi.Lib ZeroExApi.Lib.Transition

universe u

/-! ## The cache -/

/-- `CachedResult`. -/
structure CachedResult (T : Type u) where
  timestamp : ℕ
  result : T
  deriving DecidableEq

/-- What a cache is made with: how arguments read as strings, which no two of them share, which
results are truthy, and how long a result is fresh. -/
structure Settings (A T : Type u) where
  key : A → String
  key_injective : Function.Injective key
  truthy : T → Bool
  cacheExpiryMs : ℕ

/-- What a call that waits for the function has read. -/
structure Waiting (A T : Type u) where
  getArgs : A
  cached : Option (CachedResult T)

/-- The clock, the dictionary, and the calls that wait for the function. -/
structure Cache (A T : Type u) where
  now : ℕ
  resultCache : String → Option (CachedResult T)
  calls : InFlight (Waiting A T)

variable {A T E : Type u}

/-- A cache that has just been made; the clock counts from 1970. -/
def initial (now : ℕ+) : Cache A T where
  now := now
  resultCache _ := none
  calls := .empty

/-- What can happen next: time passes, a result is asked for, or the function succeeds or fails. -/
inductive Event (A T E : Type u) where
  | clock (ms : ℕ)
  | getResult (getArgs : A)
  | fulfilled (call : ℕ) (result : T)
  | rejected (call : ℕ) (error : E)

namespace Cache

/-- The test before the function is called: no result, no timestamp, or an old one. -/
def mustCall (settings : Settings A T) (s : Cache A T) (getArgs : A) : Bool :=
  match s.resultCache (settings.key getArgs) with
  | none => true
  | some cached =>
    !settings.truthy cached.result || cached.timestamp == 0 ||
      decide (cached.timestamp + settings.cacheExpiryMs < s.now)

/-- `getResultAsync` up to the call of the function. -/
def getResult (settings : Settings A T) (s : Cache A T) (getArgs : A) :
    Cache A T × Option (CachedResult T) :=
  if s.mustCall settings getArgs then
    ({ s with calls := s.calls.start ⟨getArgs, s.resultCache (settings.key getArgs)⟩ }, none)
  else
    (s, s.resultCache (settings.key getArgs))

/-- `getResultAsync` behind a call of the function that succeeds: its result is stored. -/
def afterResult (settings : Settings A T) (s : Cache A T) (call : ℕ) (waiting : Waiting A T)
    (result : T) : Cache A T × CachedResult T :=
  let cached : CachedResult T := ⟨s.now, result⟩
  ({ s with
    resultCache := Function.update s.resultCache (settings.key waiting.getArgs) (some cached)
    calls := s.calls.settle call }, cached)

/-- The `catch` block: what was read is the answer, if it is truthy. -/
def afterError (settings : Settings A T) (s : Cache A T) (call : ℕ) (waiting : Waiting A T)
    (error : E) : Cache A T × Except E (CachedResult T) :=
  ({ s with calls := s.calls.settle call },
    match waiting.cached with
    | none => .error error
    | some cached => if settings.truthy cached.result then .ok cached else .error error)

end Cache

section Step

variable (settings : Settings A T)

/-- One step. -/
def step (s : Cache A T) : Event A T E → Cache A T
  | .clock ms => { s with now := s.now + ms }
  | .getResult getArgs => (s.getResult settings getArgs).1
  | .fulfilled call result =>
    match s.calls.call? call with
    | some waiting => (s.afterResult settings call waiting result).1
    | none => s
  | .rejected call error =>
    match s.calls.call? call with
    | some waiting => (s.afterError settings call waiting error).1
    | none => s

/-- What is answered at an event, and for which argument. -/
def answer (s : Cache A T) : Event A T E → Option (A × Except E (CachedResult T))
  | .clock _ => none
  | .getResult getArgs =>
    (s.getResult settings getArgs).2.map fun cached => (getArgs, .ok cached)
  | .fulfilled call result =>
    (s.calls.call? call).map fun waiting =>
      (waiting.getArgs, .ok (s.afterResult settings call waiting result).2)
  | .rejected call error =>
    (s.calls.call? call).map fun waiting =>
      (waiting.getArgs, (s.afterError settings call waiting error).2)

/-! ## What is claimed -/

/-- A call of the function that has succeeded: its number, its argument, when it succeeded and with
what. -/
structure Success (A T : Type u) where
  call : ℕ
  getArgs : A
  produced : CachedResult T

/-- The success that an event is. -/
def success (s : Cache A T) : Event A T E → Option (Success A T)
  | .fulfilled call result =>
    (s.calls.call? call).map fun waiting => ⟨call, waiting.getArgs, ⟨s.now, result⟩⟩
  | _ => none

/-- The successes of a run, in order. -/
def successes (s : Cache A T) (es : List (Event A T E)) : List (Success A T) :=
  observed (step settings) success s es

/-- The latest success for an argument. -/
def latest [DecidableEq A] (history : List (Success A T)) (getArgs : A) : Option (Success A T) :=
  history.reverse.find? fun x => decide (x.getArgs = getArgs)

variable [DecidableEq A]

/-- What a call of the function produces does not replace what a later call did. -/
def ReplacesInOrder (now : ℕ+) (es : List (Event A T E)) : Prop :=
  ∀ past call result future x y, es = past ++ .fulfilled call result :: future →
    success (run (step settings) (initial now) past) (.fulfilled call result : Event A T E) =
        some x →
      latest (successes settings (initial now) past) x.getArgs = some y → y.call < x.call

/-- Within the expiry of a success for an argument the function is not called for it again. -/
def CallsOnce (now : ℕ+) (es : List (Event A T E)) : Prop :=
  ∀ past getArgs future x, es = past ++ .getResult getArgs :: future →
    x ∈ successes settings (initial now) past → x.getArgs = getArgs →
      (run (step settings) (initial now) past).now ≤
          x.produced.timestamp + settings.cacheExpiryMs →
        (run (step settings) (initial now) (past ++ [.getResult getArgs])).calls.started =
          (run (step settings) (initial now) past).calls.started

/-- What is claimed of a run.  What is answered was produced by the function for the argument, when
the answer says it was, and an answer that is not fresh is given only when the function has just
failed; results replace each other in the order of their calls, and within the expiry of a success
the function is not called again. -/
structure ResultCacheSpec (now : ℕ+) (es : List (Event A T E)) : Prop where
  produced : ∀ past e future getArgs cached, es = past ++ e :: future →
    answer settings (run (step settings) (initial now) past) e = some (getArgs, .ok cached) →
      ∃ x ∈ successes settings (initial now) (past ++ [e]),
        x.getArgs = getArgs ∧ x.produced = cached
  stale : ∀ past e future getArgs cached, es = past ++ e :: future →
    answer settings (run (step settings) (initial now) past) e = some (getArgs, .ok cached) →
      cached.timestamp + settings.cacheExpiryMs < (run (step settings) (initial now) past).now →
        ∃ call error, e = .rejected call error
  inOrder : ReplacesInOrder settings now es
  once : CallsOnce settings now es

/-- For each argument the function succeeds in the order it was called. -/
def SucceedsInOrder (now : ℕ+) (es : List (Event A T E)) : Prop :=
  (successes settings (initial now) es).Pairwise fun x y =>
    x.getArgs = y.getArgs → x.call < y.call

/-- An argument is not asked for while its latest result is fresh and falsy. -/
def TruthyWhenFresh (now : ℕ+) (es : List (Event A T E)) : Prop :=
  ∀ past getArgs future x, es = past ++ .getResult getArgs :: future →
    latest (successes settings (initial now) past) getArgs = some x →
      (run (step settings) (initial now) past).now ≤
          x.produced.timestamp + settings.cacheExpiryMs →
        settings.truthy x.produced.result = true

end Step

/-! ## The latest success -/

section Latest

variable [DecidableEq A] {history : List (Success A T)} {getArgs : A} {x y : Success A T}

theorem latest_append (history : List (Success A T)) (x : Success A T) (getArgs : A) :
    latest (history ++ [x]) getArgs =
      if x.getArgs = getArgs then some x else latest history getArgs := by
  unfold latest
  rw [List.reverse_append, List.reverse_singleton, List.singleton_append, List.find?_cons]
  by_cases h : x.getArgs = getArgs <;> simp [h]

theorem mem_of_latest (h : latest history getArgs = some x) :
    x ∈ history ∧ x.getArgs = getArgs := by
  unfold latest at h
  exact ⟨List.mem_reverse.mp (List.mem_of_find?_eq_some h), by simpa using List.find?_some h⟩

theorem exists_latest (hx : x ∈ history) (harg : x.getArgs = getArgs) :
    ∃ y, latest history getArgs = some y := by
  apply Option.isSome_iff_exists.mp
  unfold latest
  rw [List.find?_isSome]
  exact ⟨x, List.mem_reverse.mpr hx, by simpa using harg⟩

/-- Every success for the argument is the latest one or stands before it. -/
theorem eq_or_rel_latest {R : Success A T → Success A T → Prop} (hR : history.Pairwise R)
    (hx : x ∈ history) (harg : x.getArgs = getArgs) (hy : latest history getArgs = some y) :
    x = y ∨ R x y := by
  unfold latest at hy
  obtain ⟨_, after, before, hsplit, hafter⟩ := List.find?_eq_some_iff_append.mp hy
  have hhistory : history = before.reverse ++ y :: after.reverse := by
    rw [← List.reverse_reverse history, hsplit]
    simp
  rw [hhistory] at hx hR
  rcases List.mem_append.mp hx with hbefore | hrest
  · exact .inr ((List.pairwise_append.mp hR).2.2 x hbefore y List.mem_cons_self)
  · rcases List.mem_cons.mp hrest with rfl | hlater
    · exact .inl rfl
    · -- behind the latest success there is none for the argument
      have hnot := hafter x (List.mem_reverse.mp hlater)
      simp [harg] at hnot

end Latest

/-! ## The dictionary and the history -/

section Invariant

variable {settings : Settings A T}

theorem successes_snoc (s : Cache A T) (es : List (Event A T E)) (e : Event A T E) :
    successes settings s (es ++ [e]) =
      successes settings s es ++ (success (run (step settings) s es) e).toList := by
  rw [successes, observed_append, observed_singleton]
  rfl

/-- A success is stored at once. -/
theorem success_eq_some {s : Cache A T} {e : Event A T E} {x : Success A T}
    (h : success s e = some x) :
    ∃ waiting, e = .fulfilled x.call x.produced.result ∧ s.calls.call? x.call = some waiting ∧
      waiting.getArgs = x.getArgs ∧ x.produced.timestamp = s.now := by
  cases e with
  | fulfilled call result =>
    obtain ⟨waiting, hcall, rfl⟩ := Option.map_eq_some_iff.mp h
    exact ⟨waiting, rfl, hcall, rfl, rfl⟩
  | _ => cases h

theorem started_getResult_iff (s : Cache A T) (getArgs : A) :
    (step settings s (.getResult getArgs : Event A T E)).calls.started = s.calls.started ↔
      s.mustCall settings getArgs = false := by
  show ((s.getResult settings getArgs).1).calls.started = _ ↔ _
  unfold Cache.getResult
  split
  · rename_i hmust
    simp [hmust]
  · rename_i hmust
    simpa using hmust

/-- What is answered is stored, has just been produced, or was read before the function failed. -/
theorem answer_cases {s : Cache A T} {e : Event A T E} {getArgs : A} {cached : CachedResult T}
    (h : answer settings s e = some (getArgs, .ok cached)) :
    (s.mustCall settings getArgs = false ∧
        s.resultCache (settings.key getArgs) = some cached) ∨
      (∃ x, success s e = some x ∧ x.getArgs = getArgs ∧ x.produced = cached) ∨
      ∃ call error waiting, e = .rejected call error ∧ s.calls.call? call = some waiting ∧
        waiting.getArgs = getArgs ∧ waiting.cached = some cached := by
  cases e with
  | clock ms => cases h
  | getResult a =>
    obtain ⟨c, hc, heq⟩ := Option.map_eq_some_iff.mp h
    cases heq
    unfold Cache.getResult at hc
    split at hc
    · cases hc
    · rename_i hmust
      exact .inl ⟨by simpa using hmust, hc⟩
  | fulfilled call result =>
    obtain ⟨waiting, hcall, heq⟩ := Option.map_eq_some_iff.mp h
    cases heq
    exact .inr (.inl ⟨⟨call, waiting.getArgs, s.now, result⟩, by simp [success, hcall], rfl, rfl⟩)
  | rejected call error =>
    obtain ⟨waiting, hcall, heq⟩ := Option.map_eq_some_iff.mp h
    obtain ⟨rfl, hanswer⟩ := Prod.mk.inj heq
    right
    right
    refine ⟨call, error, waiting, rfl, hcall, rfl, ?_⟩
    -- a failure is answered with what was read, if that is truthy
    simp only [Cache.afterError] at hanswer
    split at hanswer
    · cases hanswer
    · rename_i c hc
      split at hanswer
      · cases hanswer
        exact hc
      · cases hanswer

variable [DecidableEq A]

/-- For each argument the dictionary holds the latest success, the history stands in the order of
time, and what a call has read is of the history. -/
structure Invariant (settings : Settings A T) (history : List (Success A T)) (s : Cache A T) :
    Prop where
  now_pos : 0 < s.now
  stored : ∀ getArgs, s.resultCache (settings.key getArgs) =
    (latest history getArgs).map Success.produced
  sorted : history.Pairwise fun x y => x.produced.timestamp ≤ y.produced.timestamp
  past : ∀ x ∈ history, 0 < x.produced.timestamp ∧ x.produced.timestamp ≤ s.now
  read : ∀ call waiting cached, s.calls.call? call = some waiting →
    waiting.cached = some cached →
      ∃ x ∈ history, x.getArgs = waiting.getArgs ∧ x.produced = cached

theorem invariant_initial (settings : Settings A T) (now : ℕ+) :
    Invariant settings [] (initial now) := by
  refine ⟨now.pos, fun _ => rfl, .nil, nofun, fun call waiting cached hcall => ?_⟩
  simp [initial] at hcall

/-- What is stored for an argument is of the history. -/
theorem Invariant.exists_of_stored {history : List (Success A T)} {s : Cache A T}
    (hs : Invariant settings history s) {getArgs : A} {cached : CachedResult T}
    (h : s.resultCache (settings.key getArgs) = some cached) :
    ∃ x, latest history getArgs = some x ∧ x.produced = cached := by
  rw [hs.stored] at h
  exact Option.map_eq_some_iff.mp h

/-- The invariant under a success. -/
theorem Invariant.fulfilled {history : List (Success A T)} {s : Cache A T}
    (hs : Invariant settings history s) (call : ℕ) (waiting : Waiting A T) (result : T) :
    Invariant settings (history ++ [⟨call, waiting.getArgs, ⟨s.now, result⟩⟩])
      (s.afterResult settings call waiting result).1 := by
  refine ⟨hs.now_pos, fun getArgs => ?_, ?_, fun x hx => ?_, fun n w cached hn hw => ?_⟩
  · rw [latest_append]
    show Function.update s.resultCache (settings.key waiting.getArgs) (some ⟨s.now, result⟩)
      (settings.key getArgs) = _
    by_cases harg : waiting.getArgs = getArgs
    · simp [harg]
    · -- another argument has another key
      have hkey : settings.key getArgs ≠ settings.key waiting.getArgs :=
        fun heq => harg (settings.key_injective heq).symm
      rw [Function.update_of_ne hkey, if_neg harg]
      exact hs.stored getArgs
  · rw [List.pairwise_append]
    refine ⟨hs.sorted, List.pairwise_singleton _ _, fun x hx y hy => ?_⟩
    rw [List.mem_singleton.mp hy]
    exact (hs.past x hx).2
  · rcases List.mem_append.mp hx with hbefore | hnew
    · exact hs.past x hbefore
    · rw [List.mem_singleton.mp hnew]
      exact ⟨hs.now_pos, le_rfl⟩
  · obtain ⟨x, hx, h⟩ := hs.read n w cached (InFlight.call?_of_settle hn).2 hw
    exact ⟨x, List.mem_append_left _ hx, h⟩

theorem Invariant.step {history : List (Success A T)} {s : Cache A T}
    (hs : Invariant settings history s) (e : Event A T E) :
    Invariant settings (history ++ (success s e).toList) (step settings s e) := by
  cases e with
  | clock ms =>
    simp only [success, Option.toList_none, List.append_nil]
    exact ⟨Nat.add_pos_left hs.now_pos ms, hs.stored, hs.sorted,
      fun x hx => ⟨(hs.past x hx).1, (hs.past x hx).2.trans (Nat.le_add_right _ _)⟩, hs.read⟩
  | getResult getArgs =>
    simp only [success, Option.toList_none, List.append_nil]
    show Invariant settings history (s.getResult settings getArgs).1
    unfold Cache.getResult
    split
    · refine ⟨hs.now_pos, hs.stored, hs.sorted, hs.past, fun n w cached hn hw => ?_⟩
      rcases InFlight.call?_of_start hn with ⟨_, rfl⟩ | hbefore
      · -- the call that is started has read what is stored
        obtain ⟨x, hx, hproduced⟩ := hs.exists_of_stored hw
        obtain ⟨hmem, harg⟩ := mem_of_latest hx
        exact ⟨x, hmem, harg, hproduced⟩
      · exact hs.read n w cached hbefore hw
    · exact hs
  | fulfilled call result =>
    rcases hcall : s.calls.call? call with _ | waiting
    · simpa [success, ResultCache.step, hcall] using hs
    · simpa [success, ResultCache.step, hcall] using hs.fulfilled call waiting result
  | rejected call error =>
    simp only [success, Option.toList_none, List.append_nil, ResultCache.step]
    split
    · exact ⟨hs.now_pos, hs.stored, hs.sorted, hs.past, fun n w cached hn hw =>
        hs.read n w cached (InFlight.call?_of_settle hn).2 hw⟩
    · exact hs

theorem invariant_run (settings : Settings A T) (now : ℕ+) (es : List (Event A T E)) :
    Invariant settings (successes settings (initial now) es)
      (run (step settings) (initial now) es) := by
  have hall : AlongRun (step settings) (fun _ _ => True) (initial now) es :=
    (alongRun_iff_split _ _ _ _).mpr fun _ _ _ _ => trivial
  exact observed_invariant (I := Invariant settings) (fun _ _ e hs _ => hs.step e)
    (invariant_initial settings now) hall

/-! ## Calls of the function -/

/-- The function is not called exactly if the latest result for the argument is fresh and truthy. -/
theorem Invariant.mustCall_eq_false_iff {history : List (Success A T)} {s : Cache A T}
    (hs : Invariant settings history s) (getArgs : A) :
    s.mustCall settings getArgs = false ↔
      ∃ x, latest history getArgs = some x ∧ settings.truthy x.produced.result = true ∧
        s.now ≤ x.produced.timestamp + settings.cacheExpiryMs := by
  unfold Cache.mustCall
  rw [hs.stored]
  rcases hlatest : latest history getArgs with _ | x
  · simp
  · have hpos := (hs.past x (mem_of_latest hlatest).1).1
    simp [hpos.ne']

/-! ## The parts of the claim -/

section Parts

variable (settings) (now : ℕ+) (es : List (Event A T E))

/-- Results replace each other in the order of their calls exactly if the function succeeds in that
order. -/
theorem inOrder_iff :
    ReplacesInOrder settings now es ↔ SucceedsInOrder settings now es := by
  unfold ReplacesInOrder SucceedsInOrder
  constructor
  · intro h
    induction es using List.reverseRecOn with
    | nil => exact .nil
    | append_singleton past e ih =>
      have hpast : (successes settings (initial now) past).Pairwise fun x y =>
          x.getArgs = y.getArgs → x.call < y.call := by
        apply ih
        rintro before call result future x y rfl
        exact h before call result (future ++ [e]) x y (by simp)
      rw [successes_snoc]
      rcases hsuccess : success (run (step settings) (initial now) past) e with _ | x
      · simpa using hpast
      · rw [Option.toList_some, List.pairwise_append]
        refine ⟨hpast, List.pairwise_singleton _ _, fun z hz w hw harg => ?_⟩
        obtain rfl := List.mem_singleton.mp hw
        obtain ⟨_, rfl, _⟩ := success_eq_some hsuccess
        -- the latest success before is of an earlier call, and so are those before that
        obtain ⟨y, hy⟩ := exists_latest hz harg
        have hlt := h past _ _ [] w y rfl hsuccess hy
        rcases eq_or_rel_latest hpast hz harg hy with rfl | hrel
        · exact hlt
        · exact (hrel (harg.trans (mem_of_latest hy).2.symm)).trans hlt
  · rintro h past call result future x y rfl hsuccess hy
    rw [successes, observed_append, List.pairwise_append] at h
    obtain ⟨hmem, harg⟩ := mem_of_latest hy
    refine h.2.2 y hmem x ?_ harg
    simp [observed, hsuccess]

/-- The function is called once within the expiry of a success exactly if no argument is asked for
while its latest result is fresh and falsy. -/
theorem once_iff :
    CallsOnce settings now es ↔ TruthyWhenFresh settings now es := by
  constructor
  · intro h past getArgs future x hes hx hfresh
    obtain ⟨hmem, harg⟩ := mem_of_latest hx
    have honce := h past getArgs future x hes hmem harg hfresh
    rw [run_append, run_cons, run_nil, started_getResult_iff,
      (invariant_run settings now past).mustCall_eq_false_iff] at honce
    obtain ⟨y, hy, htruthy, _⟩ := honce
    obtain rfl := Option.some.inj (hy.symm.trans hx)
    exact htruthy
  · intro h past getArgs future x hes hx harg hfresh
    have hinv := invariant_run (E := E) settings now past
    obtain ⟨y, hy⟩ := exists_latest hx harg
    -- the latest success is no older than the one that is fresh
    have hle : x.produced.timestamp ≤ y.produced.timestamp := by
      rcases eq_or_rel_latest hinv.sorted hx harg hy with rfl | hrel
      · exact le_rfl
      · exact hrel
    have hfresh' : (run (step settings) (initial now) past).now ≤
        y.produced.timestamp + settings.cacheExpiryMs := hfresh.trans (Nat.add_le_add_right hle _)
    rw [run_append, run_cons, run_nil, started_getResult_iff, hinv.mustCall_eq_false_iff]
    exact ⟨y, hy, h past getArgs future y hes hy hfresh', hfresh'⟩

/-- In every run, what is answered was produced by the function for the argument. -/
theorem answer_produced {past : List (Event A T E)} {e : Event A T E} {getArgs : A}
    {cached : CachedResult T}
    (h : answer settings (run (step settings) (initial now) past) e = some (getArgs, .ok cached)) :
    ∃ x ∈ successes settings (initial now) (past ++ [e]),
      x.getArgs = getArgs ∧ x.produced = cached := by
  have hinv := invariant_run (E := E) settings now past
  rw [successes_snoc]
  rcases answer_cases h with ⟨_, hstored⟩ | ⟨x, hx, harg, hproduced⟩ |
    ⟨call, error, waiting, rfl, hcall, rfl, hcached⟩
  · obtain ⟨x, hx, hproduced⟩ := hinv.exists_of_stored hstored
    obtain ⟨hmem, harg⟩ := mem_of_latest hx
    exact ⟨x, List.mem_append_left _ hmem, harg, hproduced⟩
  · exact ⟨x, List.mem_append_right _ (by simp [hx]), harg, hproduced⟩
  · obtain ⟨x, hx, h⟩ := hinv.read call waiting cached hcall hcached
    exact ⟨x, List.mem_append_left _ hx, h⟩

/-- In every run, what is answered is fresh, unless the function has just failed. -/
theorem rejected_of_stale {past : List (Event A T E)} {e : Event A T E} {getArgs : A}
    {cached : CachedResult T}
    (h : answer settings (run (step settings) (initial now) past) e = some (getArgs, .ok cached))
    (hstale : cached.timestamp + settings.cacheExpiryMs <
      (run (step settings) (initial now) past).now) : ∃ call error, e = .rejected call error := by
  rcases answer_cases h with ⟨hmust, hstored⟩ | ⟨x, hx, _, rfl⟩ | ⟨call, error, _, rfl, _⟩
  · rw [(invariant_run settings now past).mustCall_eq_false_iff] at hmust
    obtain ⟨x, hx, _, hfresh⟩ := hmust
    obtain ⟨y, hy, rfl⟩ := (invariant_run settings now past).exists_of_stored hstored
    obtain rfl := Option.some.inj (hy.symm.trans hx)
    omega
  · -- what has just been produced is as old as the clock says
    obtain ⟨_, _, _, _, hnow⟩ := success_eq_some hx
    omega
  · exact ⟨call, error, rfl⟩

/-- What is left of the claim is the order of the results and how often the function is called. -/
theorem resultCacheSpec_iff_parts :
    ResultCacheSpec settings now es ↔
      ReplacesInOrder settings now es ∧ CallsOnce settings now es := by
  constructor
  · intro h
    exact ⟨h.inOrder, h.once⟩
  · rintro ⟨horder, honce⟩
    refine ⟨?_, ?_, horder, honce⟩
    · intro past e future getArgs cached _ hanswer
      exact answer_produced settings now hanswer
    · intro past e future getArgs cached _ hanswer
      exact rejected_of_stale settings now hanswer

end Parts

/-- For every run, however calls overlap: the cache is as claimed exactly if for each argument the
function succeeds in the order it was called, and no argument is asked for while its latest result
is fresh and falsy. -/
theorem resultCacheSpec_iff (settings : Settings A T) (now : ℕ+) (es : List (Event A T E)) :
    ResultCacheSpec settings now es ↔
      SucceedsInOrder settings now es ∧ TruthyWhenFresh settings now es := by
  rw [resultCacheSpec_iff_parts, inOrder_iff, once_iff]

end Invariant

/-! ### A falsy result, and calls that overlap -/

/-- Numbers without an argument, fresh for ten minutes. -/
def numbers : Settings Unit ℕ where
  key _ := "undefined"
  key_injective _ _ _ := rfl
  truthy n := n != 0
  cacheExpiryMs := 600000

/-- Zero is produced, and asked for again at once. -/
def zeroAsked : List (Event Unit ℕ String) :=
  [.getResult (), .fulfilled 0 0, .getResult ()]

/-- The second of two overlapping calls succeeds first. -/
def overlapping : List (Event Unit ℕ String) :=
  [.getResult (), .getResult (), .fulfilled 1 5, .fulfilled 0 4]

/-- The function is called again for the zero, and the result of the earlier call replaces that of
the later one. -/
theorem zero_called_again_and_overlapping_replaced :
    (run (step numbers) (initial 1) zeroAsked).calls.started = 2 ∧
      ¬ ResultCacheSpec numbers 1 zeroAsked ∧
      (run (step numbers) (initial 1) overlapping).resultCache "undefined" = some ⟨1, 4⟩ ∧
      ¬ ResultCacheSpec numbers 1 overlapping := by
  refine ⟨rfl, fun h => ?_, rfl, fun h => ?_⟩
  · have honce := h.once [.getResult (), .fulfilled 0 0] () [] ⟨0, (), 1, 0⟩ rfl
      (List.mem_singleton.mpr rfl) rfl (by decide)
    exact absurd honce (by decide)
  · have horder := h.inOrder [.getResult (), .getResult (), .fulfilled 1 5] 0 4 []
      ⟨0, (), 1, 4⟩ ⟨1, (), 1, 5⟩ rfl rfl rfl
    exact absurd horder (by decide)

/-! ## The markets of the alternative market maker -/

/-- `AltRfqAsset`. -/
structure AltRfqAsset where
  address : String
  decimals : ℕ

/-- `AltRfqMarket`. -/
structure AltRfqMarket where
  id : String
  base : AltRfqAsset
  quote : AltRfqAsset

/-- `AltOffering`. -/
structure AltOffering where
  id : String
  baseAsset : String
  quoteAsset : String
  baseAssetDecimals : ℕ
  quoteAssetDecimals : ℕ

/-- `AltRfqMakerAssetOfferings`: offerings by endpoint. -/
abbrev AltRfqMakerAssetOfferings := JsMap String (List AltOffering)

/-- `altMarketResponseToAltOfferings`. -/
def altMarketResponseToAltOfferings (items : List AltRfqMarket) (altRfqUrl : String) :
    AltRfqMakerAssetOfferings :=
  let offerings := items.map fun market =>
    { id := market.id
      baseAsset := market.base.address.toLower
      baseAssetDecimals := market.base.decimals
      quoteAsset := market.quote.address.toLower
      quoteAssetDecimals := market.quote.decimals : AltOffering }
  JsMap.empty.set altRfqUrl offerings

/-- What `_getAltMarketOfferingsAsync` has cached: the markets, or no offerings where the endpoint
is not configured or the request fails.  It never throws. -/
def altMarketOfferings (ALT_RFQ_MM_ENDPOINT ALT_RFQ_MM_API_KEY : Option String)
    (response : Except String (List AltRfqMarket)) : AltRfqMakerAssetOfferings :=
  match ALT_RFQ_MM_ENDPOINT, ALT_RFQ_MM_API_KEY, response with
  | some endpoint, some _, .ok items => altMarketResponseToAltOfferings items endpoint
  | _, _, _ => JsMap.empty

/-- `_altRfqMarketsCache`: asked for without an argument, refreshed every six hours; an object is
truthy. -/
def altRfqMarketsCache : Settings Unit AltRfqMakerAssetOfferings where
  key _ := "undefined"
  key_injective _ _ _ := rfl
  truthy _ := true
  cacheExpiryMs := 360 * 60000

/-- The markets are as claimed exactly if they are fetched in the order they were asked for. -/
theorem altRfqMarketsCache_iff (now : ℕ+) (es : List (Event Unit AltRfqMakerAssetOfferings Empty)) :
    ResultCacheSpec altRfqMarketsCache now es ↔ SucceedsInOrder altRfqMarketsCache now es := by
  rw [resultCacheSpec_iff_parts, inOrder_iff, once_iff]
  apply and_iff_left
  intro past getArgs future x _ _ _
  rfl

end ZeroExApi.ResultCache
