/-
# ZeroExApi.Lib.Metered — walks that are paid for turn by turn

A walk goes from state to state as long as there is something left to pay with: a turn uses some of
what is left, or fails.  A walk is exact when it does not matter in how many parts an amount is
paid: a turn that leaves something over is the same for every amount that is enough for it, and a
turn that uses everything up goes on from where it has stopped.

`Drains` says where an amount leads and what is left of it.  For an exact walk an amount and then
another lead where their sum does (`Drains.add_iff`), and what is left over stays so for more
(`Drains.short`).
-/

import Mathlib.Data.Nat.Basic
import Mathlib.Tactic.Common
import Mathlib.Tactic.Linarith

namespace ZeroExApi.Lib

variable {ε σ : Type*}

/-- A walk: what a turn leads to and uses of what is left, and where the walk ends. -/
structure Metered (ε σ : Type*) where
  move : σ → ℕ → Except ε (σ × ℕ)
  done : σ → Bool

namespace Metered

/-- A walk from good states that may be paid in parts. -/
structure Exact (M : Metered ε σ) (Good : σ → Prop) : Prop where
  good : ∀ {s s' a used}, Good s → M.done s = false → 0 < a → M.move s a = .ok (s', used) → Good s'
  used_le : ∀ {s s' a used}, Good s → M.done s = false → 0 < a → M.move s a = .ok (s', used) →
    used ≤ a
  /-- A turn that leaves something over is the same for every amount that is enough for it. -/
  reaches : ∀ {s s' a used}, Good s → M.done s = false → 0 < a → M.move s a = .ok (s', used) →
    used < a → ∀ b, 0 < b → used ≤ b → M.move s b = .ok (s', used)
  /-- A turn that uses everything up is the same for more, or stops where more goes on. -/
  resumes : ∀ {s s' a}, Good s → M.done s = false → 0 < a → M.move s a = .ok (s', a) →
    (∀ b, 0 < b → M.move s (a + b) = .ok (s', a)) ∨
      (M.done s' = false ∧ ∀ b, 0 < b →
        M.move s (a + b) = (M.move s' b).map fun r => (r.1, a + r.2))
  /-- A turn may be left early. -/
  stops : ∀ {s s' a used}, Good s → M.done s = false → 0 < a → M.move s a = .ok (s', used) →
    ∀ b, 0 < b → b < used → ∃ t, M.move s b = .ok (t, b)

/-- Where an amount leads from a state, and what is left of it. -/
inductive Drains (M : Metered ε σ) : σ → ℕ → σ → ℕ → Prop
  | stop {s a} (h : a = 0 ∨ M.done s = true) : Drains M s a s a
  | turn {s a s' used t left} (hpos : 0 < a) (hdone : M.done s = false)
      (hmove : M.move s a = .ok (s', used)) (h : Drains M s' (a - used) t left) :
      Drains M s a t left

namespace Drains

variable {M : Metered ε σ} {Good : σ → Prop} {s t u : σ} {a b left left' : ℕ}

theorem stop_iff (h : a = 0 ∨ M.done s = true) : Drains M s a t left ↔ t = s ∧ left = a := by
  constructor
  · intro hdrains
    cases hdrains with
    | stop _ => exact ⟨rfl, rfl⟩
    | turn hpos hdone _ _ =>
      rcases h with rfl | hdone'
      · omega
      · rw [hdone] at hdone'
        cases hdone'
  · rintro ⟨rfl, rfl⟩
    exact stop h

theorem turn_iff (hpos : 0 < a) (hdone : M.done s = false) :
    Drains M s a t left ↔
      ∃ s' used, M.move s a = .ok (s', used) ∧ Drains M s' (a - used) t left := by
  constructor
  · intro hdrains
    cases hdrains with
    | stop h =>
      rcases h with rfl | hdone'
      · omega
      · rw [hdone] at hdone'
        cases hdone'
    | turn _ _ hmove h => exact ⟨_, _, hmove, h⟩
  · rintro ⟨s', used, hmove, h⟩
    exact turn hpos hdone hmove h

/-- An amount leads to one place. -/
theorem unique (h : Drains M s a t left) (h' : Drains M s a u left') : t = u ∧ left = left' := by
  induction h with
  | stop hstop =>
    obtain ⟨hu, hleft⟩ := (stop_iff hstop).mp h'
    exact ⟨hu.symm, hleft.symm⟩
  | turn hpos hdone hmove _ ih =>
    obtain ⟨s', used, hmove', hrest⟩ := (turn_iff hpos hdone).mp h'
    rw [hmove] at hmove'
    cases hmove'
    exact ih hrest

theorem left_le (h : Drains M s a t left) : left ≤ a := by
  induction h with
  | stop _ => exact le_rfl
  | turn _ _ _ _ ih => omega

section Exact

variable (hM : M.Exact Good)
include hM

theorem good (h : Drains M s a t left) (hs : Good s) : Good t := by
  induction h with
  | stop _ => exact hs
  | turn hpos hdone hmove _ ih => exact ih (hM.good hs hdone hpos hmove)

/-- Paying an amount and then another is paying their sum. -/
theorem add_iff (hs : Good s) (h : Drains M s a t 0) (b : ℕ) :
    Drains M s (a + b) u left ↔ Drains M t b u left := by
  rcases Nat.eq_zero_or_pos b with rfl | hb
  · -- nothing more is paid
    rw [Nat.add_zero, stop_iff (.inl rfl)]
    constructor
    · intro h'
      obtain ⟨rfl, rfl⟩ := unique h h'
      exact ⟨rfl, rfl⟩
    · rintro ⟨rfl, rfl⟩
      exact h
  · generalize hleft : 0 = rest at h
    induction h with
    | stop _ =>
      subst hleft
      rw [Nat.zero_add]
    | @turn s a s' used t rest hpos hdone hmove hrest ih =>
      have hs' := hM.good hs hdone hpos hmove
      have hle := hM.used_le hs hdone hpos hmove
      have ih := ih hs' hleft
      rw [turn_iff (Nat.add_pos_left hpos b) hdone]
      rcases Nat.lt_or_ge used a with hlt | hge
      · -- the turn is the same for the sum
        have hsame := hM.reaches hs hdone hpos hmove hlt (a + b) (by omega) (by omega)
        have hsub : a + b - used = a - used + b := by omega
        constructor
        · rintro ⟨s₁, used₁, hmove₁, hdrains⟩
          rw [hsame] at hmove₁
          cases hmove₁
          rw [hsub] at hdrains
          exact ih.mp hdrains
        · intro hdrains
          refine ⟨s', used, hsame, ?_⟩
          rw [hsub]
          exact ih.mpr hdrains
      · have hused : used = a := by omega
        subst hused
        rw [Nat.sub_self, Nat.zero_add] at ih
        rcases hM.resumes hs hdone hpos hmove with hsame | ⟨hdone', hon⟩
        · constructor
          · rintro ⟨s₁, used₁, hmove₁, hdrains⟩
            rw [hsame b hb] at hmove₁
            cases hmove₁
            rw [Nat.add_sub_cancel_left] at hdrains
            exact ih.mp hdrains
          · intro hdrains
            refine ⟨s', used, hsame b hb, ?_⟩
            rw [Nat.add_sub_cancel_left]
            exact ih.mpr hdrains
        · -- the sum goes on from where the first part has stopped
          rw [← ih, turn_iff hb hdone', hon b hb]
          constructor
          · rintro ⟨s₁, used₁, hmove₁, hdrains⟩
            cases hnext : M.move s' b with
            | error e =>
              rw [hnext] at hmove₁
              cases hmove₁
            | ok r =>
              rw [hnext] at hmove₁
              cases hmove₁
              rw [Nat.add_sub_add_left] at hdrains
              exact ⟨r.1, r.2, rfl, hdrains⟩
          · rintro ⟨s₁, used₁, hmove₁, hdrains⟩
            refine ⟨s₁, used + used₁, ?_, ?_⟩
            · rw [hmove₁]
              rfl
            · rw [Nat.add_sub_add_left]
              exact hdrains

/-- What an amount does not use, no larger amount uses. -/
theorem short (hs : Good s) (h : Drains M s a t left) (hleft : 0 < left) (b : ℕ) :
    Drains M s (a + b) t (left + b) := by
  induction h with
  | stop hstop =>
    rcases hstop with rfl | hdone
    · omega
    · exact stop (.inr hdone)
  | @turn s a s' used t left hpos hdone hmove hrest ih =>
    have hs' := hM.good hs hdone hpos hmove
    have hle := hM.used_le hs hdone hpos hmove
    have hlt : used < a := by
      have hleft_le := left_le hrest
      omega
    have hsame := hM.reaches hs hdone hpos hmove hlt (a + b) (by omega) (by omega)
    have hsub : a + b - used = a - used + b := by omega
    apply turn (by omega) hdone hsame
    rw [hsub]
    exact ih hs' hleft

/-- What no turn makes smaller does not get smaller. -/
theorem mono {f : σ → ℤ} (hs : Good s)
    (hle : ∀ {s s' a used}, Good s → 0 < a → M.move s a = .ok (s', used) → f s ≤ f s')
    (h : Drains M s a t left) : f s ≤ f t := by
  induction h with
  | stop _ => exact le_rfl
  | turn hpos hdone hmove _ ih =>
    exact (hle hs hpos hmove).trans (ih (hM.good hs hdone hpos hmove))

/-- What grows with every turn that uses something grows with what is used. -/
theorem lt_of_used {f : σ → ℤ} (hs : Good s)
    (hle : ∀ {s s' a used}, Good s → 0 < a → M.move s a = .ok (s', used) →
      f s ≤ f s' ∧ (0 < used → f s < f s'))
    (h : Drains M s a t left) (hleft : left < a) : f s < f t := by
  induction h with
  | stop _ => exact absurd hleft (lt_irrefl _)
  | @turn s a s' used t left hpos hdone hmove hrest ih =>
    have hs' := hM.good hs hdone hpos hmove
    obtain ⟨hturn, husedTurn⟩ := hle hs hpos hmove
    rcases Nat.eq_zero_or_pos used with hzero | hused
    · exact lt_of_le_of_lt hturn (ih hs' (by omega))
    · exact lt_of_lt_of_le (husedTurn hused)
        (hrest.mono hM hs' fun hs hpos hmove => (hle hs hpos hmove).1)

end Exact

end Drains

/-! ## What a part leads to -/

/-- Having paid an amount leads to a state: whatever is paid more goes on from there. -/
def Leads (M : Metered ε σ) (s₀ : σ) (paid : ℕ) (s : σ) : Prop :=
  ∀ b, 0 < b → ∀ t left, M.Drains s₀ (paid + b) t left ↔ M.Drains s b t left

namespace Leads

variable {M : Metered ε σ} {Good : σ → Prop} {s₀ s s' t : σ} {paid a used : ℕ}

theorem refl (M : Metered ε σ) (s : σ) : M.Leads s 0 s := by
  intro b _ t left
  rw [Nat.zero_add]

/-- A turn that leaves something over leads on. -/
theorem turn (hM : M.Exact Good) (h : M.Leads s₀ paid s) (hs : Good s) (hdone : M.done s = false)
    (hpos : 0 < a) (hmove : M.move s a = .ok (s', used)) (hlt : used < a) :
    M.Leads s₀ (paid + used) s' := by
  intro b hb t left
  have hsame := hM.reaches hs hdone hpos hmove hlt (used + b) (by omega) (by omega)
  rw [Nat.add_assoc, h (used + b) (by omega), Drains.turn_iff (by omega) hdone, hsame]
  constructor
  · rintro ⟨s₁, used₁, hmove₁, hrest⟩
    cases hmove₁
    rw [Nat.add_sub_cancel_left] at hrest
    exact hrest
  · intro hrest
    refine ⟨s', used, rfl, ?_⟩
    rw [Nat.add_sub_cancel_left]
    exact hrest

/-- An amount that is drained leads on. -/
theorem drains (hM : M.Exact Good) (h : M.Leads s₀ paid s) (hs : Good s) (hpos : 0 < a)
    (hdrains : M.Drains s a t 0) : M.Leads s₀ (paid + a) t := by
  intro b hb u left
  rw [Nat.add_assoc, h (a + b) (by omega), Drains.add_iff hM hs hdrains b]

end Leads

end Metered

end ZeroExApi.Lib
