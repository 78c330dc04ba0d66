/-
# ZeroExApi.PathSize — the size of a path against its definition in one line

`createAdjustedSize` of `market_operation_utils/path.ts` runs over the fills of a path with the
input it has come to.  Of a fill it takes what the target still leaves (`takeOf`); the output is
taken in proportion, the penalty in full.  The run goes on after the target is reached, from where
on it takes nothing and still charges penalties, so that its result is a sum over all fills
(`createAdjustedSize_eq`).
-/

import ZeroExApi.Path
import Mathlib.Data.List.Induction

namespace ZeroExApi.PathSize

open ZeroExApi.Lib ZeroExApi.Lib.BigNumber

/-- A fill of finite amounts with a positive input. -/
structure Sized (fill : Fill) : Prop where
  input_eq : fill.input = .fin fill.input.toRat
  input_pos : 0 < fill.input.toRat
  output_eq : fill.output = .fin fill.output.toRat
  adjustedOutput_eq : fill.adjustedOutput = .fin fill.adjustedOutput.toRat

/-! ## The definition -/

/-- The inputs of fills. -/
def inputSum (fills : List Fill) : ℚ := (fills.map fun fill => fill.input.toRat).sum

/-- What is taken of the input of a fill when the earlier fills have had so much. -/
def takeOf (target earlier : ℚ) (fill : Fill) : ℚ :=
  max 0 (min fill.input.toRat (target - earlier))

/-- What a fill contributes: the output in proportion to what is taken, and the whole penalty. -/
def contribution (target earlier : ℚ) (fill : Fill) : ℚ :=
  takeOf target earlier fill / fill.input.toRat * fill.output.toRat +
    (fill.adjustedOutput.toRat - fill.output.toRat)

/-- The contributions of all fills, each after the inputs of the ones before it. -/
def outputSum (target : ℚ) (fills : List Fill) : ℚ :=
  (fills.mapIdx fun i fill => contribution target (inputSum (fills.take i)) fill).sum

/-- The size of fills for a target. -/
def referenceSize (target : ℚ) (fills : List Fill) : PathSize :=
  ⟨.fin (min (inputSum fills) target), .fin (outputSum target fills)⟩

@[simp]
theorem inputSum_concat (fills : List Fill) (fill : Fill) :
    inputSum (fills ++ [fill]) = inputSum fills + fill.input.toRat := by
  simp [inputSum]

theorem outputSum_concat (target : ℚ) (fills : List Fill) (fill : Fill) :
    outputSum target (fills ++ [fill]) =
      outputSum target fills + contribution target (inputSum fills) fill := by
  have hearlier : ∀ i (hi : i < fills.length), (fills ++ [fill]).take i = fills.take i :=
    fun i hi => List.take_append_of_le_length hi.le
  have hmap : fills.mapIdx (fun i f => contribution target
      (inputSum ((fills ++ [fill]).take i)) f) =
      fills.mapIdx fun i f => contribution target (inputSum (fills.take i)) f := by
    apply List.ext_getElem
    · simp
    · intro i h₁ _
      rw [List.length_mapIdx] at h₁
      simp only [List.getElem_mapIdx, hearlier i h₁]
  unfold outputSum
  rw [List.mapIdx_append, hmap]
  simp

/-! ## A turn of the run -/

/-- `createAdjustedSize` goes over the fills with this. -/
def addFill [Arithmetic] (targetInput : BigNumber) (currentSize : PathSize) (fill : Fill) :
    PathSize :=
  if (currentSize.input.plus fill.input).gt targetInput then
    let remainingInput := targetInput.minus currentSize.input
    let scaledFillOutput := fill.output.times (remainingInput.div fill.input)
    let penalty := fill.adjustedOutput.minus fill.output
    ⟨targetInput, (currentSize.output.plus scaledFillOutput).plus penalty⟩
  else
    ⟨currentSize.input.plus fill.input, currentSize.output.plus fill.adjustedOutput⟩

theorem createAdjustedSize_concat [Arithmetic] (targetInput : BigNumber) (fills : List Fill)
    (fill : Fill) : createAdjustedSize targetInput (fills ++ [fill]) =
      addFill targetInput (createAdjustedSize targetInput fills) fill := by
  unfold createAdjustedSize
  rw [List.foldl_concat]
  rfl

/-- The input of a run is what the fills have up to the target, whatever their outputs are. -/
theorem addFill_input [Arithmetic] {target earlier : ℚ} {size : PathSize} {fill : Fill}
    (hsize : size.input = .fin (min earlier target)) (hfill : IsAmount fill.input) :
    (addFill (.fin target) size fill).input = .fin (min (earlier + fill.input.toRat) target) := by
  obtain ⟨i, hi, hi₀⟩ := hfill
  unfold addFill
  rw [hsize, hi, plus_fin, gt_fin, toRat_fin]
  by_cases hover : target < min earlier target + i
  · rw [if_pos (decide_eq_true hover)]
    have hover' : target ≤ earlier + i := hover.le.trans (by
      have := min_le_left earlier target
      linarith)
    rw [min_eq_right hover']
  · rw [if_neg (by simpa using hover)]
    -- the target has not been reached before, or the fill has no input
    rw [not_lt] at hover
    rcases le_total earlier target with hle | hle
    · rw [min_eq_left hle] at hover ⊢
      rw [min_eq_left hover]
    · rw [min_eq_right hle] at hover ⊢
      have hzero : i = 0 := le_antisymm (by linarith) hi₀
      rw [hzero, add_zero, add_zero, min_eq_right hle]

/-- The input of a path's size is the inputs of its fills up to the target. -/
theorem createAdjustedSize_input [Arithmetic] {target : ℚ} (htarget : 0 ≤ target)
    {fills : List Fill} (hfills : ∀ fill ∈ fills, IsAmount fill.input) :
    (createAdjustedSize (.fin target) fills).input = .fin (min (inputSum fills) target) := by
  induction fills using List.reverseRecOn with
  | nil => exact congrArg fin (min_eq_left htarget).symm
  | append_singleton fills fill ih =>
    have hrest := ih fun x hx => hfills x (List.mem_append_left _ hx)
    rw [createAdjustedSize_concat, inputSum_concat]
    exact addFill_input hrest (hfills fill (by simp))

/-- A turn adds the contribution of its fill. -/
theorem addFill_output {target earlier output : ℚ} {size : PathSize} {fill : Fill}
    (hinput : size.input = .fin (min earlier target)) (houtput : size.output = .fin output)
    (hfill : Sized fill) :
    (addFill (.fin target) size fill).output =
      .fin (output + contribution target earlier fill) := by
  have hpos := hfill.input_pos
  unfold addFill contribution takeOf
  rw [hinput, houtput, hfill.input_eq, hfill.output_eq, hfill.adjustedOutput_eq, plus_fin, gt_fin]
  simp only [toRat_fin]
  by_cases hover : target < min earlier target + fill.input.toRat
  · rw [if_pos (decide_eq_true hover)]
    -- what is left is less than the fill has, and nothing once the target is reached
    have htake : max 0 (min fill.input.toRat (target - earlier)) = target - min earlier target := by
      rcases le_total earlier target with hle | hle
      · rw [min_eq_left hle] at hover ⊢
        rw [min_eq_right (by linarith), max_eq_right (by linarith)]
      · rw [min_eq_right hle, sub_self]
        exact max_eq_left ((min_le_right _ _).trans (by linarith))
    dsimp only
    rw [minus_fin, minus_fin, div_fin _ hpos.ne', times_fin, plus_fin, plus_fin, htake,
      mul_comm, add_assoc]
  · rw [if_neg (by simpa using hover)]
    -- the whole fill is taken
    rw [not_lt] at hover
    have hle : earlier ≤ target := by
      by_contra hgt
      rw [min_eq_right (not_le.mp hgt).le] at hover
      linarith
    rw [min_eq_left hle] at hover
    have htake : max 0 (min fill.input.toRat (target - earlier)) = fill.input.toRat := by
      rw [min_eq_left (by linarith), max_eq_right hpos.le]
    dsimp only
    rw [plus_fin, htake, div_self hpos.ne', one_mul, add_sub_cancel]

/-! ## The run -/

theorem createAdjustedSize_reference {target : ℚ} (htarget : 0 ≤ target) {fills : List Fill}
    (hfills : ∀ fill ∈ fills, Sized fill) :
    createAdjustedSize (.fin target) fills = referenceSize target fills := by
  have hamount : ∀ fills : List Fill, (∀ fill ∈ fills, Sized fill) →
      ∀ fill ∈ fills, IsAmount fill.input := fun fills h fill hfill =>
    ⟨_, (h fill hfill).input_eq, (h fill hfill).input_pos.le⟩
  have houtput : (createAdjustedSize (.fin target) fills).output =
      .fin (outputSum target fills) := by
    induction fills using List.reverseRecOn with
    | nil => rfl
    | append_singleton fills fill ih =>
      have hrest : ∀ x ∈ fills, Sized x := fun x hx => hfills x (List.mem_append_left _ hx)
      rw [createAdjustedSize_concat, outputSum_concat]
      exact addFill_output (createAdjustedSize_input htarget (hamount fills hrest)) (ih hrest)
        (hfills fill (by simp))
  have hinput := createAdjustedSize_input htarget (hamount fills hfills)
  rw [referenceSize, ← hinput, ← houtput]

/-- Within the target the fills are taken whole. -/
theorem outputSum_within {target : ℚ} {fills : List Fill} (hfills : ∀ fill ∈ fills, Sized fill)
    (hwithin : inputSum fills ≤ target) :
    outputSum target fills = (fills.map fun fill => fill.adjustedOutput.toRat).sum := by
  induction fills using List.reverseRecOn with
  | nil => rfl
  | append_singleton fills fill ih =>
    have hpos := (hfills fill (by simp)).input_pos
    rw [inputSum_concat] at hwithin
    have hrest := ih (fun x hx => hfills x (List.mem_append_left _ hx)) (by linarith)
    have htake : takeOf target (inputSum fills) fill = fill.input.toRat := by
      rw [takeOf, min_eq_left (by linarith), max_eq_right hpos.le]
    rw [outputSum_concat, hrest, contribution, htake, div_self hpos.ne', one_mul, add_sub_cancel,
      List.map_append, List.sum_append, List.map_singleton, List.sum_singleton]

/-- A fill of ten for ten, with a penalty of one. -/
def fillOfTen : Fill where
  input := .fin 10
  output := .fin 10
  adjustedOutput := .fin 9
  gas := 0
  source := .uniswapV2
  type := .bridge
  fillData := .uniswapV2 ["input", "output"] "router"
  flags := 0

end ZeroExApi.PathSize
