/-
# ZeroExApi.Lib.Transition — finite runs of a deterministic labelled transition system

A system here is one function `step : σ → ε → σ`: the event decides the successor.  A run is a list
of events read from a start state.  Three things are said about runs: the state a run ends in, a
predicate that each event of the run has to meet in the state it arrives in (`AlongRun`), and what
is observed of the events, in order (`observed`).  The rules at the end are the only inductions over
runs that a client needs: an invariant is shown for one step, and a property of the steps of a run
follows from the invariant.
-/

namespace ZeroExApi.Lib.Transition

universe u v w

variable {σ : Type u} {ε : Type v} {ω : Type w}

/-! ## Runs -/

/-- The state a list of events leads to. -/
def run (step : σ → ε → σ) (s : σ) : List ε → σ
  | [] => s
  | e :: es => run step (step s e) es

@[simp]
theorem run_nil (step : σ → ε → σ) (s : σ) : run step s [] = s := rfl

@[simp]
theorem run_cons (step : σ → ε → σ) (s : σ) (e : ε) (es : List ε) :
    run step s (e :: es) = run step (step s e) es := rfl

theorem run_append (step : σ → ε → σ) (s : σ) (es fs : List ε) :
    run step s (es ++ fs) = run step (run step s es) fs := by
  induction es generalizing s with
  | nil => rfl
  | cons e es ih => simpa using ih (step s e)

/-- `P` holds of every event of the run in the state the event arrives in. -/
def AlongRun (step : σ → ε → σ) (P : σ → ε → Prop) (s : σ) : List ε → Prop
  | [] => True
  | e :: es => P s e ∧ AlongRun step P (step s e) es

@[simp]
theorem alongRun_nil (step : σ → ε → σ) (P : σ → ε → Prop) (s : σ) : AlongRun step P s [] :=
  trivial

@[simp]
theorem alongRun_cons (step : σ → ε → σ) (P : σ → ε → Prop) (s : σ) (e : ε) (es : List ε) :
    AlongRun step P s (e :: es) ↔ P s e ∧ AlongRun step P (step s e) es := Iff.rfl

theorem alongRun_append (step : σ → ε → σ) (P : σ → ε → Prop) (s : σ) (es fs : List ε) :
    AlongRun step P s (es ++ fs) ↔ AlongRun step P s es ∧ AlongRun step P (run step s es) fs := by
  induction es generalizing s with
  | nil => simp
  | cons e es ih => simp [ih, and_assoc]

/-- Being met along a run is being met at every split of the run into a past, an event and a
future. -/
theorem alongRun_iff_split (step : σ → ε → σ) (P : σ → ε → Prop) (s : σ) (es : List ε) :
    AlongRun step P s es ↔
      ∀ past e future, es = past ++ e :: future → P (run step s past) e := by
  induction es generalizing s with
  | nil => simp
  | cons e es ih =>
    rw [alongRun_cons, ih]
    constructor
    · rintro ⟨hhead, htail⟩ past e' future hsplit
      cases past with
      | nil =>
        simp only [List.nil_append, List.cons.injEq] at hsplit
        obtain ⟨rfl, -⟩ := hsplit
        exact hhead
      | cons p past =>
        simp only [List.cons_append, List.cons.injEq] at hsplit
        obtain ⟨rfl, hrest⟩ := hsplit
        exact htail past e' future hrest
    · intro h
      refine ⟨h [] e es rfl, ?_⟩
      intro past e' future hsplit
      exact h (e :: past) e' future (by rw [hsplit, List.cons_append])

/-! ## Observations -/

/-- What is observed along a run, where an event shows something or nothing. -/
def observed (step : σ → ε → σ) (obs : σ → ε → Option ω) (s : σ) : List ε → List ω
  | [] => []
  | e :: es => (obs s e).toList ++ observed step obs (step s e) es

theorem observed_append (step : σ → ε → σ) (obs : σ → ε → Option ω) (s : σ) (es fs : List ε) :
    observed step obs s (es ++ fs) =
      observed step obs s es ++ observed step obs (run step s es) fs := by
  induction es generalizing s with
  | nil => rfl
  | cons e es ih => simp [observed, ih]

@[simp]
theorem observed_singleton (step : σ → ε → σ) (obs : σ → ε → Option ω) (s : σ) (e : ε) :
    observed step obs s [e] = (obs s e).toList := by
  simp [observed]

/-! ## Invariants -/

/-- What holds at the start and survives every step holds after every run. -/
theorem run_invariant {step : σ → ε → σ} {I : σ → Prop} (hstep : ∀ s e, I s → I (step s e))
    {s : σ} (hs : I s) (es : List ε) : I (run step s es) := by
  induction es generalizing s with
  | nil => exact hs
  | cons e es ih => exact ih (hstep s e hs)

/-- The same for what relates the state to what has been observed so far, over runs whose steps all
meet a guard. -/
theorem observed_invariant {step : σ → ε → σ} {obs : σ → ε → Option ω} {I : List ω → σ → Prop}
    {G : σ → ε → Prop}
    (hstep : ∀ os s e, I os s → G s e → I (os ++ (obs s e).toList) (step s e))
    {os : List ω} {s : σ} (hs : I os s) {es : List ε} (hG : AlongRun step G s es) :
    I (os ++ observed step obs s es) (run step s es) := by
  induction es generalizing os s with
  | nil => simpa [observed] using hs
  | cons e es ih =>
    obtain ⟨hg, hrest⟩ := hG
    have hnext := ih (hstep os s e hs hg) hrest
    rwa [List.append_assoc] at hnext

/-- Under an invariant, two predicates that agree at every step agree along every run. -/
theorem alongRun_congr {step : σ → ε → σ} {I : σ → Prop} {P Q : σ → ε → Prop}
    (hstep : ∀ s e, I s → I (step s e)) (hPQ : ∀ s e, I s → (P s e ↔ Q s e))
    {s : σ} (hs : I s) (es : List ε) :
    AlongRun step P s es ↔ AlongRun step Q s es := by
  induction es generalizing s with
  | nil => exact Iff.rfl
  | cons e es ih =>
    rw [alongRun_cons, alongRun_cons, hPQ s e hs, ih (hstep s e hs)]

/-- The guarded rule: when an invariant survives only the steps that meet a guard, a run whose
steps all meet it keeps the invariant and everything the invariant gives for such steps. -/
theorem alongRun_of_guard {step : σ → ε → σ} {I : σ → Prop} {G P : σ → ε → Prop}
    (hstep : ∀ s e, I s → G s e → I (step s e)) (hP : ∀ s e, I s → G s e → P s e)
    {s : σ} (hs : I s) {es : List ε} (hG : AlongRun step G s es) :
    AlongRun step P s es ∧ I (run step s es) := by
  induction es generalizing s with
  | nil => exact ⟨trivial, hs⟩
  | cons e es ih =>
    obtain ⟨hg, hrest⟩ := hG
    obtain ⟨hp, hinv⟩ := ih (hstep s e hs hg) hrest
    exact ⟨⟨hP s e hs hg, hp⟩, hinv⟩

end ZeroExApi.Lib.Transition
