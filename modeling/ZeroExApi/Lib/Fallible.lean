/-
# ZeroExApi.Lib.Fallible — computations that may throw, read through their results

A computation in `Except ε` succeeds with a value or fails.  The lemmas turn "it succeeds with `b`"
into the successes of its parts: of a bind (`bind_eq_ok`), and of running one computation on every
element of a list (`mapM_eq_ok_iff`).
-/

import Mathlib.Data.List.Forall2

namespace ZeroExApi.Lib.Fallible

universe u v

variable {ε : Type u} {α β : Type v}

/-- A bind succeeds when both of its parts do. -/
theorem bind_eq_ok {x : Except ε α} {f : α → Except ε β} {b : β} :
    (x >>= f) = .ok b ↔ ∃ a, x = .ok a ∧ f a = .ok b := by
  cases x with
  | error e =>
    constructor
    · intro h
      cases h
    · rintro ⟨a, ha, _⟩
      cases ha
  | ok a =>
    constructor
    · intro h
      exact ⟨a, rfl, h⟩
    · rintro ⟨a', ha, h⟩
      cases ha
      exact h

theorem ok_bind (a : α) (f : α → Except ε β) : ((.ok a : Except ε α) >>= f) = f a := rfl

/-- Computations that start alike and end in results of one function of each other. -/
theorem bind_eq_map_bind {γ : Type v} {x : Except ε α} {f : α → Except ε γ} {g : α → Except ε β}
    {h : β → γ} (hfg : ∀ a, f a = (g a).map h) : (x >>= f) = (x >>= g).map h := by
  cases x with
  | error e => rfl
  | ok a => exact hfg a

theorem map_bind_eq_map_bind {γ : Type v} {x : Except ε α} {k : α → α} {f : α → Except ε γ}
    {g : α → Except ε β} {h : β → γ} (hfg : ∀ a, f (k a) = (g a).map h) :
    (x.map k >>= f) = (x >>= g).map h := by
  cases x with
  | error e => rfl
  | ok a => exact hfg a

/-- Whether a computation succeeds, as a proposition. -/
def Succeeds (x : Except ε α) : Prop := ∃ a, x = .ok a

@[simp]
theorem succeeds_ok (a : α) : Succeeds (.ok a : Except ε α) := ⟨a, rfl⟩

@[simp]
theorem not_succeeds_error (e : ε) : ¬ Succeeds (.error e : Except ε α) := by
  rintro ⟨a, ha⟩
  cases ha

theorem succeeds_bind {x : Except ε α} {f : α → Except ε β} :
    Succeeds (x >>= f) ↔ ∃ a, x = .ok a ∧ Succeeds (f a) := by
  constructor
  · rintro ⟨b, hb⟩
    obtain ⟨a, ha, hf⟩ := bind_eq_ok.mp hb
    exact ⟨a, ha, b, hf⟩
  · rintro ⟨a, ha, b, hf⟩
    exact ⟨b, bind_eq_ok.mpr ⟨a, ha, hf⟩⟩

@[simp]
theorem succeeds_map {x : Except ε α} {f : α → β} : Succeeds (x.map f) ↔ Succeeds x := by
  cases x with
  | error e => exact iff_of_false (not_succeeds_error e) (not_succeeds_error e)
  | ok a => exact iff_of_true ⟨f a, rfl⟩ ⟨a, rfl⟩

/-- A test of the result of a computation; false when there is none. -/
def okAnd (x : Except ε α) (check : α → Bool) : Bool :=
  match x with
  | .ok a => check a
  | .error _ => false

theorem exists_of_okAnd {x : Except ε α} {check : α → Bool} (h : okAnd x check = true) :
    ∃ a, x = .ok a ∧ check a = true := by
  cases x with
  | error e => cases h
  | ok a => exact ⟨a, rfl, h⟩

/-- Running a computation over a list succeeds with the list of its results. -/
theorem mapM_eq_ok_iff {f : α → Except ε β} {xs : List α} {ys : List β} :
    xs.mapM f = .ok ys ↔ List.Forall₂ (fun x y => f x = .ok y) xs ys := by
  induction xs generalizing ys with
  | nil =>
    rw [List.mapM_nil, List.forall₂_nil_left_iff]
    constructor
    · intro h
      cases h
      rfl
    · rintro rfl
      rfl
  | cons x xs ih =>
    rw [List.mapM_cons, bind_eq_ok, List.forall₂_cons_left_iff]
    constructor
    · rintro ⟨y, hy, h⟩
      obtain ⟨rest, hrest, h⟩ := bind_eq_ok.mp h
      cases h
      exact ⟨y, rest, hy, ih.mp hrest, rfl⟩
    · rintro ⟨y, rest, hy, hrest, rfl⟩
      exact ⟨y, hy, bind_eq_ok.mpr ⟨rest, ih.mpr hrest, rfl⟩⟩

/-- Running a computation over a list succeeds when it succeeds on each element. -/
theorem mapM_succeeds_iff {f : α → Except ε β} {xs : List α} :
    Succeeds (xs.mapM f) ↔ ∀ x ∈ xs, Succeeds (f x) := by
  induction xs with
  | nil => exact ⟨fun _ x hx => absurd hx List.not_mem_nil, fun _ => ⟨[], rfl⟩⟩
  | cons x xs ih =>
    rw [List.mapM_cons, succeeds_bind, List.forall_mem_cons]
    constructor
    · rintro ⟨y, hy, h⟩
      obtain ⟨rest, hrest, _⟩ := succeeds_bind.mp h
      exact ⟨⟨y, hy⟩, ih.mp ⟨rest, hrest⟩⟩
    · rintro ⟨⟨y, hy⟩, h⟩
      obtain ⟨rest, hrest⟩ := ih.mpr h
      exact ⟨y, hy, succeeds_bind.mpr ⟨rest, hrest, y :: rest, rfl⟩⟩

/-- Where each element has a result of a kind, so has the list. -/
theorem mapM_succeeds_with {f : α → Except ε β} {R : α → β → Prop} {xs : List α}
    (h : ∀ x ∈ xs, ∃ y, f x = .ok y ∧ R x y) : ∃ ys, xs.mapM f = .ok ys ∧ List.Forall₂ R xs ys := by
  induction xs with
  | nil => exact ⟨[], mapM_eq_ok_iff.mpr .nil, .nil⟩
  | cons x xs ih =>
    obtain ⟨y, hy, hR⟩ := h x List.mem_cons_self
    obtain ⟨ys, hys, hrest⟩ := ih fun z hz => h z (List.mem_cons_of_mem x hz)
    exact ⟨y :: ys, mapM_eq_ok_iff.mpr (.cons hy (mapM_eq_ok_iff.mp hys)), .cons hR hrest⟩

/-- Every result stands for an element it was computed from. -/
theorem exists_of_mem_right {R : α → β → Prop} {xs : List α} {ys : List β}
    (h : List.Forall₂ R xs ys) {y : β} (hy : y ∈ ys) : ∃ x ∈ xs, R x y := by
  induction h with
  | nil => exact absurd hy List.not_mem_nil
  | cons hxy _ ih =>
    rcases List.mem_cons.mp hy with rfl | hrest
    · exact ⟨_, List.mem_cons_self, hxy⟩
    · obtain ⟨x, hx, hR⟩ := ih hrest
      exact ⟨x, List.mem_cons_of_mem _ hx, hR⟩

/-- Every element has a result. -/
theorem exists_of_mem_left {R : α → β → Prop} {xs : List α} {ys : List β}
    (h : List.Forall₂ R xs ys) {x : α} (hx : x ∈ xs) : ∃ y ∈ ys, R x y :=
  exists_of_mem_right h.flip hx

/-- What is read off an element and off its result alike is the same list. -/
theorem map_eq_map {γ : Type v} {R : α → β → Prop} {f : α → γ} {g : β → γ} {xs : List α}
    {ys : List β} (h : List.Forall₂ R xs ys) (hfg : ∀ x y, R x y → f x = g y) :
    xs.map f = ys.map g := by
  induction h with
  | nil => rfl
  | cons hxy _ ih => rw [List.map_cons, List.map_cons, hfg _ _ hxy, ih]

/-- A property of the elements is one of the results when each pair agrees on it. -/
theorem forall_mem_iff {R : α → β → Prop} {P : α → Prop} {Q : β → Prop} {xs : List α}
    {ys : List β} (h : List.Forall₂ R xs ys) (hPQ : ∀ x y, R x y → (P x ↔ Q y)) :
    (∀ x ∈ xs, P x) ↔ ∀ y ∈ ys, Q y := by
  induction h with
  | nil => simp
  | cons hxy _ ih => rw [List.forall_mem_cons, List.forall_mem_cons, hPQ _ _ hxy, ih]

/-- What the elements are in order, the results are where each pair hands it on. -/
theorem pairwise_of_forall₂ {R : α → β → Prop} {S : α → α → Prop} {T : β → β → Prop}
    (hmono : ∀ {x x' y y'}, S x x' → R x y → R x' y' → T y y') {xs : List α} {ys : List β}
    (h : List.Forall₂ R xs ys) (hpairs : xs.Pairwise S) : ys.Pairwise T := by
  induction h with
  | nil => exact .nil
  | @cons x y xs ys hxy h ih =>
    obtain ⟨hall, hpairs⟩ := List.pairwise_cons.mp hpairs
    refine .cons (fun y' hy' => ?_) (ih hpairs)
    obtain ⟨x', hx', hR⟩ := exists_of_mem_right h hy'
    exact hmono (hall x' hx') hxy hR

/-- The results of results stand for the elements. -/
theorem forall₂_comp {γ : Type v} {R : α → β → Prop} {S : β → γ → Prop} {xs : List α}
    {ys : List β} {zs : List γ} (h : List.Forall₂ R xs ys) (h' : List.Forall₂ S ys zs) :
    List.Forall₂ (fun x z => ∃ y, R x y ∧ S y z) xs zs := by
  induction h generalizing zs with
  | nil =>
    cases h'
    exact .nil
  | cons hxy _ ih =>
    cases h' with
    | cons hyz h' => exact .cons ⟨_, hxy, hyz⟩ (ih h')

end ZeroExApi.Lib.Fallible
