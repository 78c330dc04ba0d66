/-
# ZeroExApi.Lib.JsMap — insertion-ordered maps, and plain objects used as maps

`JsMap` is a `Map`: its entries stand in the order their keys were first set, `set` on a key that is
present replaces the value where it stands, and no key occurs twice, which the structure carries as
a proof.  The lemmas read every operation through `get`.

A plain object used as a map differs in two ways that its client can observe.  Reading a key that
the object does not hold may find a property it inherits (`objectPrototypeNames`), and its entries
list the keys that are array indices first, in numeric order.
-/

import Mathlib.Data.List.Basic
import Mathlib.Data.List.Nodup
import Mathlib.Data.List.Perm.Basic
import Mathlib.Algebra.Group.Nat.Defs

namespace ZeroExApi.Lib

universe u v

/-- An insertion-ordered map without repeated keys. -/
structure JsMap (κ : Type u) (ν : Type v) where
  entries : List (κ × ν)
  nodup : (entries.map Prod.fst).Nodup

namespace JsMap

variable {κ : Type u} {ν : Type v}

/-- `new Map()`. -/
def empty : JsMap κ ν := ⟨[], List.nodup_nil⟩

variable [DecidableEq κ]

/-! ## Operations -/

/-- The value of the first entry under a key. -/
def lookup (k : κ) : List (κ × ν) → Option ν
  | [] => none
  | e :: es => if e.1 = k then some e.2 else lookup k es

/-- Replace the value under a key where it stands, or append a new entry. -/
def assign (k : κ) (x : ν) : List (κ × ν) → List (κ × ν)
  | [] => [(k, x)]
  | e :: es => if e.1 = k then (k, x) :: es else e :: assign k x es

theorem mem_keys_assign {k k' : κ} {x : ν} {es : List (κ × ν)} :
    k' ∈ (assign k x es).map Prod.fst ↔ k' = k ∨ k' ∈ es.map Prod.fst := by
  induction es with
  | nil => simp [assign]
  | cons e es ih =>
    by_cases he : e.1 = k
    · simp only [assign, he, if_true, List.map_cons, List.mem_cons]
      tauto
    · simp only [assign, he, if_false, List.map_cons, List.mem_cons, ih]
      tauto

theorem nodup_keys_assign {k : κ} {x : ν} {es : List (κ × ν)} (h : (es.map Prod.fst).Nodup) :
    ((assign k x es).map Prod.fst).Nodup := by
  induction es with
  | nil => simp [assign]
  | cons e es ih =>
    obtain ⟨hnot, hrest⟩ := List.nodup_cons.mp h
    by_cases he : e.1 = k
    · simp only [assign, he, if_true, List.map_cons, List.nodup_cons]
      exact ⟨he ▸ hnot, hrest⟩
    · simp only [assign, he, if_false, List.map_cons, List.nodup_cons]
      refine ⟨?_, ih hrest⟩
      rw [mem_keys_assign]
      rintro (heq | hmem)
      · exact he heq
      · exact hnot hmem

/-- `get`. -/
def get (m : JsMap κ ν) (k : κ) : Option ν := lookup k m.entries

/-- `set`. -/
def set (m : JsMap κ ν) (k : κ) (x : ν) : JsMap κ ν :=
  ⟨assign k x m.entries, nodup_keys_assign m.nodup⟩

/-- `delete`. -/
def delete (m : JsMap κ ν) (k : κ) : JsMap κ ν :=
  ⟨m.entries.filter fun e => decide (e.1 ≠ k), m.nodup.sublist (List.filter_sublist.map _)⟩

/-- The entries under the keys that are accepted. -/
def pickKeys (m : JsMap κ ν) (accept : κ → Bool) : JsMap κ ν :=
  ⟨m.entries.filter fun e => accept e.1, m.nodup.sublist (List.filter_sublist.map _)⟩

/-- The map with each value replaced by its image, as `mapValues` on an object does. -/
def mapValues {μ : Type v} (m : JsMap κ ν) (f : ν → μ) : JsMap κ μ :=
  ⟨m.entries.map fun e => (e.1, f e.2), by simpa [Function.comp_def] using m.nodup⟩

/-! ## Reading through `get` -/

@[simp]
theorem get_empty (k : κ) : (empty : JsMap κ ν).get k = none := rfl

theorem lookup_assign (k k' : κ) (x : ν) (es : List (κ × ν)) :
    lookup k' (assign k x es) = if k' = k then some x else lookup k' es := by
  induction es with
  | nil =>
    by_cases h : k' = k
    · simp [assign, lookup, h]
    · simp [assign, lookup, h, Ne.symm h]
  | cons e es ih =>
    by_cases he : e.1 = k
    · by_cases h : k' = k
      · simp [assign, lookup, he, h]
      · simp [assign, lookup, he, h, Ne.symm h]
    · simp only [assign, lookup, he, if_false, ih]
      by_cases h : k' = k
      · simp [h, he]
      · simp [h]

theorem get_set (m : JsMap κ ν) (k k' : κ) (x : ν) :
    (m.set k x).get k' = if k' = k then some x else m.get k' := lookup_assign k k' x m.entries

theorem lookup_filter_ne (k k' : κ) (es : List (κ × ν)) :
    lookup k' (es.filter fun e => decide (e.1 ≠ k)) = if k' = k then none else lookup k' es := by
  induction es with
  | nil => simp [lookup]
  | cons e es ih =>
    by_cases he : e.1 = k
    · by_cases h : k' = k
      · simpa [he, h, lookup] using ih
      · simpa [he, h, lookup, Ne.symm h] using ih
    · by_cases h : k' = k
      · simpa [he, h, lookup] using ih
      · simp only [List.filter_cons, decide_eq_true_eq, ne_eq, he, not_false_eq_true, if_true,
          lookup, h, if_false] at ih ⊢
        rw [ih]

theorem get_delete (m : JsMap κ ν) (k k' : κ) :
    (m.delete k).get k' = if k' = k then none else m.get k' := lookup_filter_ne k k' m.entries

theorem lookup_eq_some_iff {k : κ} {x : ν} {es : List (κ × ν)} (h : (es.map Prod.fst).Nodup) :
    lookup k es = some x ↔ (k, x) ∈ es := by
  induction es with
  | nil => simp [lookup]
  | cons e es ih =>
    obtain ⟨hnot, hrest⟩ := List.nodup_cons.mp h
    obtain ⟨k₀, x₀⟩ := e
    by_cases he : k₀ = k
    · subst he
      have hfresh : (k₀, x) ∉ es := fun hmem => hnot (List.mem_map.mpr ⟨_, hmem, rfl⟩)
      simp only [lookup, if_true, Option.some.injEq, List.mem_cons, Prod.mk.injEq, true_and, hfresh,
        or_false]
      exact eq_comm
    · have hne : (k, x) ≠ (k₀, x₀) := fun heq => he (congrArg Prod.fst heq).symm
      simp only [lookup, he, if_false, ih hrest, List.mem_cons, hne, false_or]

/-- The entries of a map are what `get` finds. -/
theorem get_eq_some_iff (m : JsMap κ ν) (k : κ) (x : ν) : m.get k = some x ↔ (k, x) ∈ m.entries :=
  lookup_eq_some_iff m.nodup

theorem get_eq_none_iff (m : JsMap κ ν) (k : κ) : m.get k = none ↔ k ∉ m.entries.map Prod.fst := by
  rw [Option.eq_none_iff_forall_ne_some]
  constructor
  · intro h hmem
    obtain ⟨⟨k', x⟩, he, rfl⟩ := List.mem_map.mp hmem
    exact h x ((m.get_eq_some_iff k' x).mpr he)
  · intro h x hx
    exact h (List.mem_map.mpr ⟨_, (m.get_eq_some_iff k x).mp hx, rfl⟩)

theorem assign_of_not_mem {k : κ} {x : ν} {es : List (κ × ν)} (h : k ∉ es.map Prod.fst) :
    assign k x es = es ++ [(k, x)] := by
  induction es with
  | nil => rfl
  | cons e es ih =>
    rw [List.map_cons, List.mem_cons, not_or] at h
    simp only [assign, Ne.symm h.1, if_false, ih h.2, List.cons_append]

/-- Setting a key that is absent appends. -/
theorem entries_set_of_get_eq_none {m : JsMap κ ν} {k : κ} (h : m.get k = none) (x : ν) :
    (m.set k x).entries = m.entries ++ [(k, x)] :=
  assign_of_not_mem ((m.get_eq_none_iff k).mp h)

theorem mem_assign {k : κ} {x : ν} {es : List (κ × ν)} {e : κ × ν} (h : e ∈ assign k x es) :
    e = (k, x) ∨ e ∈ es := by
  induction es with
  | nil => exact .inl (List.mem_singleton.mp h)
  | cons e₀ es ih =>
    by_cases he : e₀.1 = k
    · simp only [assign, he, if_true, List.mem_cons] at h
      exact h.imp_right (List.mem_cons_of_mem _)
    · simp only [assign, he, if_false, List.mem_cons] at h
      rcases h with rfl | hrest
      · exact .inr List.mem_cons_self
      · exact (ih hrest).imp_right (List.mem_cons_of_mem _)

/-- Setting a key adds no entry but its own. -/
theorem mem_entries_set {m : JsMap κ ν} {k : κ} {x : ν} {e : κ × ν}
    (h : e ∈ (m.set k x).entries) : e = (k, x) ∨ e ∈ m.entries :=
  mem_assign h

/-! ## Several keys at once -/

/-- Delete every key of a list. -/
def deleteAll (m : JsMap κ ν) (ks : List κ) : JsMap κ ν := ks.foldl delete m

theorem get_deleteAll (m : JsMap κ ν) (ks : List κ) (k : κ) :
    (m.deleteAll ks).get k = if k ∈ ks then none else m.get k := by
  induction ks generalizing m with
  | nil => simp [deleteAll]
  | cons k₀ ks ih =>
    have hstep : (m.deleteAll (k₀ :: ks)).get k = ((m.delete k₀).deleteAll ks).get k := rfl
    rw [hstep, ih, get_delete]
    by_cases h₀ : k = k₀
    · simp [h₀]
    · simp [h₀]

/-- Set the keys of a list of entries, one after the other. -/
def setAll (m : JsMap κ ν) (es : List (κ × ν)) : JsMap κ ν :=
  es.foldl (fun m e => m.set e.1 e.2) m

theorem get_setAll_of_not_mem (m : JsMap κ ν) {es : List (κ × ν)} {k : κ}
    (h : k ∉ es.map Prod.fst) : (m.setAll es).get k = m.get k := by
  induction es generalizing m with
  | nil => rfl
  | cons e es ih =>
    rw [List.map_cons, List.mem_cons, not_or] at h
    have hstep : (m.setAll (e :: es)).get k = ((m.set e.1 e.2).setAll es).get k := rfl
    rw [hstep, ih _ h.2, get_set, if_neg h.1]

/-- Of keys without repetition, each is set to the value of its entry. -/
theorem get_setAll_of_mem (m : JsMap κ ν) {es : List (κ × ν)} (hnodup : (es.map Prod.fst).Nodup)
    {e : κ × ν} (he : e ∈ es) : (m.setAll es).get e.1 = some e.2 := by
  induction es generalizing m with
  | nil => exact absurd he List.not_mem_nil
  | cons e₀ es ih =>
    obtain ⟨hnot, hrest⟩ := List.nodup_cons.mp hnodup
    have hstep : (m.setAll (e₀ :: es)).get e.1 = ((m.set e₀.1 e₀.2).setAll es).get e.1 := rfl
    rw [hstep]
    rcases List.mem_cons.mp he with rfl | hmem
    · rw [get_setAll_of_not_mem _ hnot, get_set, if_pos rfl]
    · exact ih _ hrest hmem

end JsMap

/-! ## Sets -/

/-- A `Set`: elements in the order they were first added, without repetition. -/
structure JsSet (κ : Type u) where
  elements : List κ
  nodup : elements.Nodup

namespace JsSet

variable {κ : Type u} [DecidableEq κ]

/-- `new Set()`. -/
def empty : JsSet κ := ⟨[], List.nodup_nil⟩

/-- Append an element that is not there yet. -/
def addTo (k : κ) (ks : List κ) : List κ := if k ∈ ks then ks else ks ++ [k]

theorem nodup_addTo {k : κ} {ks : List κ} (h : ks.Nodup) : (addTo k ks).Nodup := by
  unfold addTo
  split
  · exact h
  · rename_i hnot
    rw [List.nodup_append]
    refine ⟨h, List.nodup_singleton k, ?_⟩
    intro a ha b hb heq
    rw [List.mem_singleton.mp hb] at heq
    exact hnot (heq ▸ ha)

/-- `add`. -/
def add (s : JsSet κ) (k : κ) : JsSet κ := ⟨addTo k s.elements, nodup_addTo s.nodup⟩

theorem mem_addTo {k k' : κ} {ks : List κ} : k' ∈ addTo k ks ↔ k' ∈ ks ∨ k' = k := by
  unfold addTo
  split
  · rename_i hmem
    constructor
    · exact .inl
    · rintro (h | rfl)
      · exact h
      · exact hmem
  · rw [List.mem_append, List.mem_singleton]

theorem mem_add {s : JsSet κ} {k k' : κ} :
    k' ∈ (s.add k).elements ↔ k' ∈ s.elements ∨ k' = k := mem_addTo

/-- `new Set(array)`. -/
def ofList (ks : List κ) : JsSet κ := ks.foldl add empty

theorem mem_foldl_add {s : JsSet κ} {ks : List κ} {k : κ} :
    k ∈ (ks.foldl add s).elements ↔ k ∈ s.elements ∨ k ∈ ks := by
  induction ks generalizing s with
  | nil => simp
  | cons k₀ ks ih =>
    rw [List.foldl_cons, ih, mem_add, List.mem_cons, or_assoc]

theorem mem_ofList {ks : List κ} {k : κ} : k ∈ (ofList ks).elements ↔ k ∈ ks := by
  rw [ofList, mem_foldl_add]
  simp [empty]

theorem ofList_of_forall_eq {ks : List κ} {k : κ} (hne : ks ≠ []) (hall : ∀ x ∈ ks, x = k) :
    (ofList ks).elements = [k] := by
  apply List.perm_singleton.mp
  rw [List.perm_ext_iff_of_nodup (ofList ks).nodup (List.nodup_singleton k)]
  intro x
  rw [mem_ofList, List.mem_singleton]
  constructor
  · exact hall x
  · rintro rfl
    obtain ⟨y, hy⟩ := List.exists_mem_of_ne_nil ks hne
    rw [← hall y hy]
    exact hy

end JsSet

/-! ## Plain objects -/

/-- The names a plain object inherits from `Object.prototype`. -/
def objectPrototypeNames : List String :=
  ["constructor", "__defineGetter__", "__defineSetter__", "hasOwnProperty", "__lookupGetter__",
    "__lookupSetter__", "isPrototypeOf", "propertyIsEnumerable", "toString", "valueOf",
    "__proto__", "toLocaleString"]

/-- What reading a key of a plain object finds: nothing, a value of its own, or an inherited
property, none of which is falsy. -/
inductive Property (ν : Type u) where
  | absent
  | own (value : ν)
  | inherited
  deriving DecidableEq

/-- `object[key]`. -/
def readProperty {ν : Type u} (object : JsMap String ν) (key : String) : Property ν :=
  match object.get key with
  | some value => .own value
  | none => if objectPrototypeNames.contains key then .inherited else .absent

/-- The number a key denotes when it is an array index in canonical form. -/
def arrayIndex (key : String) : Option ℕ :=
  match key.toNat? with
  | some n => if toString n = key ∧ n < 2 ^ 32 - 1 then some n else none
  | none => none

/-- `Object.entries`: array indices in numeric order, then the other keys as they were added. -/
def objectEntries {ν : Type u} (object : JsMap String ν) : List (String × ν) :=
  let (indices, names) := object.entries.partition fun e => (arrayIndex e.1).isSome
  (indices.mergeSort fun a b => decide ((arrayIndex a.1).getD 0 ≤ (arrayIndex b.1).getD 0)) ++ names

/-- `Object.entries` lists every entry once, in whatever order. -/
theorem objectEntries_perm {ν : Type u} (object : JsMap String ν) :
    (objectEntries object).Perm object.entries := by
  simp only [objectEntries, List.partition_eq_filter_filter]
  exact ((List.mergeSort_perm _ _).append_right _).trans (List.filter_append_perm _ _)

end ZeroExApi.Lib
