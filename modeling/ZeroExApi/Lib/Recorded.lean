/-
# ZeroExApi.Lib.Recorded — what a system has on record was so at some moment of its run

A system keeps records of a world that goes on changing: copies, samples, answers on their way.
`Held s a` says that the state `s` has the record `a` somewhere, and `Seen s a` that the world is as
`a` says in the state `s`.  Where a step makes no record that was not there before, unless the world
is as it says at that step, everything that is ever held was seen at some moment of the run, however
the steps interleave (`seenAlong_of_held`).

`SeenAlong` is what is left to a client: the moment is a prefix of the run.  Where it matters which
event made the record, `exists_step_of_held` has it.
-/

import ZeroExApi.Lib.Transition
import Mathlib.Data.List.Induction

namespace ZeroExApi.Lib.Transition

universe u v w

variable {σ : Type u} {ε : Type v} {α : Type w} {step : σ → ε → σ}

/-- At some moment of the run, its start and its end included, the record is true. -/
def SeenAlong (step : σ → ε → σ) (Seen : σ → α → Prop) (s : σ) (es : List ε) (a : α) : Prop :=
  ∃ past future, es = past ++ future ∧ Seen (run step s past) a

/-- The rule: under an invariant, what holds of a state and did not at the start has been made by
one of the steps. -/
theorem exists_step_of_held {I Held : σ → Prop} {Made : σ → ε → Prop}
    (hI : ∀ s e, I s → I (step s e))
    (hnew : ∀ s e, I s → Held (step s e) → Held s ∨ Made s e)
    {s : σ} (hs : I s) (hnone : ¬ Held s) (es : List ε) (h : Held (run step s es)) :
    ∃ past e future, es = past ++ e :: future ∧ Made (run step s past) e := by
  induction es using List.reverseRecOn with
  | nil => exact absurd h hnone
  | append_singleton es e ih =>
    have hpast : I (run step s es) := run_invariant hI hs es
    rw [run_append, run_cons, run_nil] at h
    rcases hnew _ e hpast h with hbefore | hmade
    · obtain ⟨past, e', future, rfl, hmade⟩ := ih hbefore
      exact ⟨past, e', future ++ [e], by rw [List.append_assoc, List.cons_append], hmade⟩
    · exact ⟨es, e, [], rfl, hmade⟩

/-- The rule: under an invariant, each step keeps a record or makes one that is true behind it or
before it. -/
theorem seenAlong_of_held {I : σ → Prop} {Held Seen : σ → α → Prop}
    (hI : ∀ s e, I s → I (step s e))
    (hnew : ∀ s e a, I s → Held (step s e) a → Held s a ∨ Seen s a ∨ Seen (step s e) a)
    {s : σ} (hs : I s) (hnone : ∀ a, ¬ Held s a) (es : List ε) {a : α}
    (ha : Held (run step s es) a) : SeenAlong step Seen s es a := by
  obtain ⟨past, e, future, rfl, hseen | hseen⟩ :=
    @exists_step_of_held _ _ _ I (Held · a) (fun s e => Seen s a ∨ Seen (step s e) a) hI
      (fun s e => hnew s e a) s hs (hnone a) es ha
  · exact ⟨past, e :: future, rfl, hseen⟩
  · refine ⟨past ++ [e], future, by rw [List.append_assoc, List.singleton_append], ?_⟩
    rw [run_append]
    exact hseen

end ZeroExApi.Lib.Transition
