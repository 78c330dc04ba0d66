/-
# ZeroExApi.Lib.PiecedCurve — moves along a line that cost and give

A curve says what a move along a line costs, what it gives, and what it does to the state that both
depend on.  It is exact when a move may be made in parts and neither side of a move is for nothing.
Curves are pieced together at joints, where the state changes on its own (`Chain`).

Of two places on a chain one comes before the other, and the later one costs more exactly if it
gives more (`Chain.leads`).  So what is paid at a place says what is received there, and the other
way round (`Chain.paidAt_eq_iff`).
-/

import Mathlib.Data.Int.Notation
import Mathlib.Tactic.Common
import Mathlib.Tactic.Linarith

namespace ZeroExApi.Lib

variable {S : Type*}

/-- What a move from one point to another costs and gives, and the state it leads to. -/
structure Curve (S : Type*) where
  paid : S → ℤ → ℤ → ℕ
  received : S → ℤ → ℤ → ℕ
  after : S → ℤ → ℤ → S

/-- A curve along which a move may be made in parts. -/
structure Curve.Exact (c : Curve S) : Prop where
  after_self : ∀ s x, c.after s x x = s
  after_trans : ∀ s {x y z}, x ≤ y → y ≤ z → c.after s x z = c.after (c.after s x y) y z
  paid_add : ∀ s {x y z}, x ≤ y → y ≤ z →
    c.paid s x z = c.paid s x y + c.paid (c.after s x y) y z
  received_add : ∀ s {x y z}, x ≤ y → y ≤ z →
    c.received s x z = c.received s x y + c.received (c.after s x y) y z
  /-- Neither side of a move is for nothing. -/
  free_iff : ∀ s {x y}, x ≤ y → (c.paid s x y = 0 ↔ c.received s x y = 0)

namespace Curve.Exact

variable {c : Curve S} (h : c.Exact)
include h

@[simp]
theorem paid_self (s : S) (x : ℤ) : c.paid s x x = 0 := by
  have hadd := h.paid_add s (le_refl x) (le_refl x)
  rw [h.after_self] at hadd
  omega

@[simp]
theorem received_self (s : S) (x : ℤ) : c.received s x x = 0 := by
  have hadd := h.received_add s (le_refl x) (le_refl x)
  rw [h.after_self] at hadd
  omega

end Curve.Exact

/-! ## Totals that go together -/

/-- From one pair of totals to another, both sides grow or neither does. -/
structure GrowTogether (paid received paid' received' : ℕ) : Prop where
  paid_le : paid ≤ paid'
  received_le : received ≤ received'
  eq_iff : paid = paid' ↔ received = received'

theorem GrowTogether.refl (p r : ℕ) : GrowTogether p r p r :=
  ⟨le_rfl, le_rfl, iff_of_true rfl rfl⟩

theorem GrowTogether.trans {p r p' r' p'' r'' : ℕ} (h : GrowTogether p r p' r')
    (h' : GrowTogether p' r' p'' r'') : GrowTogether p r p'' r'' := by
  obtain ⟨hp, hr, heq⟩ := h
  obtain ⟨hp', hr', heq'⟩ := h'
  refine ⟨hp.trans hp', hr.trans hr', ?_⟩
  constructor
  · intro hsame
    have hfirst : p = p' := by omega
    have hsecond : p' = p'' := by omega
    exact (heq.mp hfirst).trans (heq'.mp hsecond)
  · intro hsame
    have hfirst : r = r' := by omega
    have hsecond : r' = r'' := by omega
    exact (heq.mpr hfirst).trans (heq'.mpr hsecond)

/-! ## Pieces -/

/-- Pieces of a curve between joints, from a state on. -/
structure Chain (S : Type*) where
  curve : Curve S
  joint : ℕ → ℤ
  cross : ℕ → S → S
  init : S

namespace Chain

/-- The state at the start of a piece. -/
def stateAt (C : Chain S) : ℕ → S
  | 0 => C.init
  | k + 1 => C.cross k (C.curve.after (stateAt C k) (C.joint k) (C.joint (k + 1)))

/-- What has been paid at the start of a piece. -/
def paidUpTo (C : Chain S) : ℕ → ℕ
  | 0 => 0
  | k + 1 => paidUpTo C k + C.curve.paid (C.stateAt k) (C.joint k) (C.joint (k + 1))

/-- What has been received at the start of a piece. -/
def receivedUpTo (C : Chain S) : ℕ → ℕ
  | 0 => 0
  | k + 1 => receivedUpTo C k + C.curve.received (C.stateAt k) (C.joint k) (C.joint (k + 1))

variable (C : Chain S)

/-- What has been paid at a place. -/
def paidAt (k : ℕ) (x : ℤ) : ℕ := C.paidUpTo k + C.curve.paid (C.stateAt k) (C.joint k) x

/-- What has been received at a place. -/
def receivedAt (k : ℕ) (x : ℤ) : ℕ :=
  C.receivedUpTo k + C.curve.received (C.stateAt k) (C.joint k) x

/-- A place on a piece, where no piece before it goes back. -/
structure On (k : ℕ) (x : ℤ) : Prop where
  forward : ∀ j < k, C.joint j ≤ C.joint (j + 1)
  left : C.joint k ≤ x
  right : x ≤ C.joint (k + 1)

/-- A chain with a place has one where it starts. -/
theorem On.start {C : Chain S} {k : ℕ} {x : ℤ} (hx : C.On k x) : C.On 0 (C.joint 0) := by
  refine ⟨fun j hj => absurd hj (Nat.not_lt_zero j), le_rfl, ?_⟩
  rcases Nat.eq_zero_or_pos k with rfl | hk
  · exact hx.left.trans hx.right
  · exact hx.forward 0 hk

section Places

variable {C} (h : C.curve.Exact) {k k' : ℕ} {x x' : ℤ}
include h

/-- A joint is the end of a piece and the start of the next. -/
theorem paidAt_joint (k : ℕ) :
    C.paidAt (k + 1) (C.joint (k + 1)) = C.paidAt k (C.joint (k + 1)) := by
  unfold paidAt
  rw [h.paid_self, Nat.add_zero]
  rfl

theorem receivedAt_joint (k : ℕ) :
    C.receivedAt (k + 1) (C.joint (k + 1)) = C.receivedAt k (C.joint (k + 1)) := by
  unfold receivedAt
  rw [h.received_self, Nat.add_zero]
  rfl

/-- What a move on a piece adds. -/
theorem paidAt_add (hleft : C.joint k ≤ x) (hle : x ≤ x') :
    C.paidAt k x' =
      C.paidAt k x + C.curve.paid (C.curve.after (C.stateAt k) (C.joint k) x) x x' := by
  unfold paidAt
  rw [h.paid_add _ hleft hle, Nat.add_assoc]

theorem receivedAt_add (hleft : C.joint k ≤ x) (hle : x ≤ x') :
    C.receivedAt k x' =
      C.receivedAt k x + C.curve.received (C.curve.after (C.stateAt k) (C.joint k) x) x x' := by
  unfold receivedAt
  rw [h.received_add _ hleft hle, Nat.add_assoc]

/-- Along a piece both sides grow together. -/
theorem growTogether_of_le (hleft : C.joint k ≤ x) (hle : x ≤ x') :
    GrowTogether (C.paidAt k x) (C.receivedAt k x) (C.paidAt k x') (C.receivedAt k x') := by
  rw [paidAt_add h hleft hle, receivedAt_add h hleft hle]
  have hfree := h.free_iff (C.curve.after (C.stateAt k) (C.joint k) x) hle
  refine ⟨Nat.le_add_right _ _, Nat.le_add_right _ _, ?_⟩
  constructor
  · intro heq
    have hzero := hfree.mp (by omega)
    omega
  · intro heq
    have hzero := hfree.mpr (by omega)
    omega

/-- From a place to the start of a later piece both sides grow together. -/
theorem growTogether_of_lt (hx : C.On k x) (hlt : k < k')
    (hforward : ∀ j < k', C.joint j ≤ C.joint (j + 1)) :
    GrowTogether (C.paidAt k x) (C.receivedAt k x) (C.paidAt k' (C.joint k'))
      (C.receivedAt k' (C.joint k')) := by
  induction k' with
  | zero => omega
  | succ k' ih =>
    rw [paidAt_joint h, receivedAt_joint h]
    rcases Nat.lt_succ_iff_lt_or_eq.mp hlt with hlt' | rfl
    · have hbefore := ih hlt' fun j hj => hforward j (by omega)
      exact hbefore.trans (growTogether_of_le h le_rfl (hforward k' (by omega)))
    · exact growTogether_of_le h hx.left hx.right

/-- From a place to a later one both sides grow together. -/
theorem leads (hx : C.On k x) (hx' : C.On k' x') (hle : k < k' ∨ k = k' ∧ x ≤ x') :
    GrowTogether (C.paidAt k x) (C.receivedAt k x) (C.paidAt k' x') (C.receivedAt k' x') := by
  rcases hle with hlt | ⟨rfl, hle⟩
  · exact (growTogether_of_lt h hx hlt hx'.forward).trans (growTogether_of_le h le_rfl hx'.left)
  · exact growTogether_of_le h hx.left hle

/-- Of two places one is the later. -/
theorem leads_or (hx : C.On k x) (hx' : C.On k' x') :
    GrowTogether (C.paidAt k x) (C.receivedAt k x) (C.paidAt k' x') (C.receivedAt k' x') ∨
      GrowTogether (C.paidAt k' x') (C.receivedAt k' x') (C.paidAt k x) (C.receivedAt k x) := by
  rcases lt_trichotomy k k' with hlt | rfl | hlt
  · exact .inl (leads h hx hx' (.inl hlt))
  · rcases le_total x x' with hle | hle
    · exact .inl (leads h hx hx' (.inr ⟨rfl, hle⟩))
    · exact .inr (leads h hx' hx (.inr ⟨rfl, hle⟩))
  · exact .inr (leads h hx' hx (.inl hlt))

/-- What is paid says what is received. -/
theorem paidAt_eq_iff (hx : C.On k x) (hx' : C.On k' x') :
    C.paidAt k x = C.paidAt k' x' ↔ C.receivedAt k x = C.receivedAt k' x' := by
  rcases leads_or h hx hx' with hgrow | hgrow
  · exact hgrow.eq_iff
  · rw [eq_comm, hgrow.eq_iff, eq_comm]

/-- More is paid exactly for more. -/
theorem paidAt_lt_iff (hx : C.On k x) (hx' : C.On k' x') :
    C.paidAt k x < C.paidAt k' x' ↔ C.receivedAt k x < C.receivedAt k' x' := by
  have heq := paidAt_eq_iff h hx hx'
  rcases leads_or h hx hx' with ⟨hp, hr, _⟩ | ⟨hp, hr, _⟩ <;> omega

/-- What costs less comes before. -/
theorem before_of_lt (hx : C.On k x) (hx' : C.On k' x') (hlt : C.paidAt k x < C.paidAt k' x') :
    k < k' ∨ k = k' ∧ x < x' := by
  by_contra hnot
  have hle : k' < k ∨ k' = k ∧ x' ≤ x := by omega
  have hgrow := leads h hx' hx hle
  exact absurd hgrow.paid_le (not_le.mpr hlt)

/-- A later place that is not further on is for nothing. -/
theorem same_of_lt (hx : C.On k x) (hx' : C.On k' x') (hlt : k < k') (hle : x' ≤ x) :
    C.paidAt k x = C.paidAt k' x' ∧ C.receivedAt k x = C.receivedAt k' x' := by
  -- every joint in between is at the place
  have hjoints : ∀ n, k < n → n ≤ k' → x ≤ C.joint n ∧
      (C.joint n = x → C.paidAt k x = C.paidAt n (C.joint n) ∧
        C.receivedAt k x = C.receivedAt n (C.joint n)) := by
    intro n hkn hnk
    induction n with
    | zero => omega
    | succ n ih =>
      rw [paidAt_joint h, receivedAt_joint h]
      rcases Nat.lt_succ_iff_lt_or_eq.mp hkn with hlt' | rfl
      · obtain ⟨hbehind, hsame⟩ := ih hlt' (by omega)
        have hforward := hx'.forward n (by omega)
        refine ⟨hbehind.trans hforward, fun hjoint => ?_⟩
        have hbefore : C.joint n = x := le_antisymm (hjoint ▸ hforward) hbehind
        rw [hjoint, ← hbefore]
        exact hbefore ▸ hsame hbefore
      · refine ⟨hx.right, fun hjoint => ?_⟩
        rw [hjoint]
        exact ⟨rfl, rfl⟩
  obtain ⟨hbehind, hsame⟩ := hjoints k' hlt le_rfl
  have hleft := hx'.left
  have hjoint : C.joint k' = x := by omega
  have hplace : x' = C.joint k' := by omega
  rw [hplace]
  exact hsame hjoint

/-- Of two places, the one that is further on costs and gives no less. -/
theorem growTogether_of_right (hx : C.On k x) (hx' : C.On k' x') (hle : x ≤ x') :
    GrowTogether (C.paidAt k x) (C.receivedAt k x) (C.paidAt k' x') (C.receivedAt k' x') := by
  rcases lt_trichotomy k k' with hlt | rfl | hlt
  · exact leads h hx hx' (.inl hlt)
  · exact leads h hx hx' (.inr ⟨rfl, hle⟩)
  · obtain ⟨hpaid, hreceived⟩ := same_of_lt h hx' hx hlt hle
    rw [hpaid, hreceived]
    exact GrowTogether.refl _ _

end Places

end Chain

end ZeroExApi.Lib
