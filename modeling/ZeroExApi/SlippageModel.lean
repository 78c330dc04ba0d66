/-
# ZeroExApi.SlippageModel — the slippage models of a file, by pair and source

`utils/slippage_model_manager.ts` over `utils/pair_utils.ts`.  A file is parsed, checked against a
schema and put in a map of maps: the models of a pair of tokens stand under its key, each under its
source.  The key of a pair is the same for both orders of its tokens and, for tokens without a dash,
determines them (`toKey_inj`).  A lookup finds the last entry of the file that is of the pair and
the source and whose first token the key begins with (`getModel_cacheOf`).

The schema does not list the price of the first token, so a model is cached with whatever stands
there.
-/

import ZeroExApi.Types
import ZeroExApi.Lib.JsMap
import ZeroExApi.Lib.JsString
import ZeroExApi.Lib.Fallible

namespace ZeroExApi

open ZeroExApi.Lib ZeroExApi.Lib.JsString ZeroExApi.Lib.Fallible

/-! ## Keys of pairs -/

namespace pairUtils

/-- `toKey`. -/
def toKey (tokenA tokenB : String) : String :=
  String.intercalate "-" (([tokenA, tokenB].map String.toLower).insertionSort (· ≤ ·))

theorem toKey_eq (tokenA tokenB : String) :
    toKey tokenA tokenB =
      if tokenA.toLower ≤ tokenB.toLower then tokenA.toLower ++ "-" ++ tokenB.toLower
      else tokenB.toLower ++ "-" ++ tokenA.toLower := by
  unfold toKey
  split
  · rename_i hle
    simp [hle]
  · rename_i hle
    simp [hle]

/-- The order of the tokens does not matter, nor does their case. -/
theorem toKey_comm (tokenA tokenB : String) : toKey tokenA tokenB = toKey tokenB tokenA := by
  rw [toKey_eq, toKey_eq]
  rcases lt_trichotomy tokenA.toLower tokenB.toLower with hlt | heq | hgt
  · rw [if_pos hlt.le, if_neg (not_le.mpr hlt)]
  · rw [heq]
  · rw [if_neg (not_le.mpr hgt), if_pos hgt.le]

theorem toKey_toLower (tokenA tokenB : String) :
    toKey tokenA.toLower tokenB.toLower = toKey tokenA tokenB := by
  rw [toKey_eq, toKey_eq, toLower_toLower, toLower_toLower]

/-- Two tokens, in lower case, in one order or the other. -/
def SameTokens (tokenA tokenB tokenC tokenD : String) : Prop :=
  (tokenA.toLower = tokenC.toLower ∧ tokenB.toLower = tokenD.toLower) ∨
    (tokenA.toLower = tokenD.toLower ∧ tokenB.toLower = tokenC.toLower)

/-- Text before a dash and after it, when neither has one. -/
theorem append_dash_inj {a b c d : String} (ha : '-' ∉ a.toList) (hb : '-' ∉ b.toList)
    (h : a ++ "-" ++ b = c ++ "-" ++ d) : a = c ∧ b = d := by
  have hlist : a.toList ++ '-' :: b.toList = c.toList ++ '-' :: d.toList := by
    have hchars := congrArg String.toList h
    simpa [String.toList_append] using hchars
  obtain ⟨hac, _, hbd⟩ := (List.append_cons_inj_of_notMem ha hb).mp hlist
  exact ⟨String.toList_inj.mp hac, String.toList_inj.mp hbd⟩

/-- The key of two tokens without a dash determines them. -/
theorem toKey_inj {tokenA tokenB tokenC tokenD : String} (hA : '-' ∉ tokenA.toList)
    (hB : '-' ∉ tokenB.toList) (h : toKey tokenA tokenB = toKey tokenC tokenD) :
    SameTokens tokenA tokenB tokenC tokenD := by
  have hA' := dash_notMem_toLower hA
  have hB' := dash_notMem_toLower hB
  rw [toKey_eq, toKey_eq] at h
  split at h
  · split at h
    · exact .inl (append_dash_inj hA' hB' h)
    · exact .inr (append_dash_inj hA' hB' h)
  · split at h
    · exact .inr (append_dash_inj hB' hA' h).symm
    · exact .inl (append_dash_inj hB' hA' h).symm

end pairUtils

open pairUtils

/-! ## Models and files of models -/

/-- `SlippageModel`, with the price as it stands in the file: the number `BigNumber` reads there,
and no number where it reads none. -/
structure SlippageModel where
  token0 : String
  token1 : String
  source : String
  slippageCoefficient : ℚ
  volumeCoefficient : ℚ
  intercept : ℚ
  token0PriceInUsd : BigNumber

/-- An element of a parsed file, by the fields that are read; one that is not there, or of another
type than the schema wants, is `none`. -/
structure ParsedModel where
  token0 : Option String
  token1 : Option String
  source : Option String
  slippageCoefficient : Option ℚ
  volumeCoefficient : Option ℚ
  intercept : Option ℚ
  token0PriceInUsd : BigNumber

/-- The content of a file, as `JSON.parse` reads it. -/
inductive FileContent where
  | notJson
  | notArray
  | array (elements : List ParsedModel)

/-- What `createSlippageModelCache` throws. -/
inductive SlippageModelFileError where
  | syntaxError
  | validationError
  deriving DecidableEq

/-- An element that meets `slippageModelSchema`.  All fields are required but the price. -/
def ParsedModel.validate (isAddress : String → Bool) (element : ParsedModel) :
    Except SlippageModelFileError SlippageModel :=
  match element.token0, element.token1, element.source, element.slippageCoefficient,
    element.volumeCoefficient, element.intercept with
  | some token0, some token1, some source, some slippageCoefficient, some volumeCoefficient,
    some intercept =>
    if isAddress token0 && isAddress token1 then
      .ok ⟨token0, token1, source, slippageCoefficient, volumeCoefficient, intercept,
        element.token0PriceInUsd⟩
    else
      .error .validationError
  | _, _, _, _, _, _ => .error .validationError

/-- The models of a file: `JSON.parse`, then `validateSchema`. -/
def parseSlippageModels (isAddress : String → Bool) :
    FileContent → Except SlippageModelFileError (List SlippageModel)
  | .notJson => .error .syntaxError
  | .notArray => .error .validationError
  | .array elements => elements.mapM (ParsedModel.validate isAddress)

/-- `SlippageModelCache`. -/
abbrev SlippageModelCache := JsMap String (JsMap String SlippageModel)

/-- The first token of a model, which the key of its pair has to begin with. -/
def SlippageModel.isValid (slippageModel : SlippageModel) : Bool :=
  slippageModel.token0.toLower.toList.isPrefixOf
    (toKey slippageModel.token0 slippageModel.token1).toList

/-- A model as it is cached. -/
def SlippageModel.cached (slippageModel : SlippageModel) : SlippageModel :=
  { slippageModel with
    token0 := slippageModel.token0.toLower
    token1 := slippageModel.token1.toLower }

/-- The body of the loop over the models. -/
def addSlippageModel (cache : SlippageModelCache) (slippageModel : SlippageModel) :
    SlippageModelCache :=
  let pairKey := toKey slippageModel.token0 slippageModel.token1
  if !slippageModel.isValid then
    cache
  else
    let cacheForPair := (cache.get pairKey).getD .empty
    cache.set pairKey (cacheForPair.set slippageModel.source slippageModel.cached)

/-- The cache of some models. -/
def cacheOf (slippageModelList : List SlippageModel) : SlippageModelCache :=
  slippageModelList.foldl addSlippageModel .empty

/-- `createSlippageModelCache`. -/
def createSlippageModelCache (isAddress : String → Bool) (slippageModelFileContent : FileContent) :
    Except SlippageModelFileError SlippageModelCache := do
  let slippageModelList ← parseSlippageModels isAddress slippageModelFileContent
  .ok (cacheOf slippageModelList)

/-! ## Lookups -/

/-- The model under the key of a pair and a source. -/
def getModel (cache : SlippageModelCache) (pairKey source : String) : Option SlippageModel :=
  (cache.get pairKey).bind fun cacheForPair => cacheForPair.get source

/-- An entry of a file that is cached under a key and a source. -/
def SlippageModel.isOf (pairKey source : String) (slippageModel : SlippageModel) : Bool :=
  slippageModel.isValid &&
    (decide (toKey slippageModel.token0 slippageModel.token1 = pairKey) &&
      decide (slippageModel.source = source))

theorem getModel_add (cache : SlippageModelCache) (slippageModel : SlippageModel)
    (pairKey source : String) :
    getModel (addSlippageModel cache slippageModel) pairKey source =
      if slippageModel.isOf pairKey source then some slippageModel.cached
      else getModel cache pairKey source := by
  unfold addSlippageModel SlippageModel.isOf getModel
  cases slippageModel.isValid with
  | false => simp
  | true =>
    simp only [Bool.not_true, Bool.false_eq_true, if_false, Bool.true_and, JsMap.get_set]
    by_cases hkey : pairKey = toKey slippageModel.token0 slippageModel.token1
    · rw [if_pos hkey, Option.bind_some, JsMap.get_set, ← hkey]
      by_cases hsource : source = slippageModel.source
      · simp [hsource]
      · rw [if_neg hsource, if_neg (by simp [Ne.symm hsource])]
        cases cache.get pairKey <;> rfl
    · rw [if_neg hkey, if_neg (by simp [Ne.symm hkey])]

/-- A lookup finds the last entry that is cached under its key and source. -/
theorem getModel_cacheOf (slippageModelList : List SlippageModel) (pairKey source : String) :
    getModel (cacheOf slippageModelList) pairKey source =
      (slippageModelList.reverse.find? (SlippageModel.isOf pairKey source)).map
        SlippageModel.cached := by
  unfold cacheOf
  induction slippageModelList using List.reverseRecOn with
  | nil => rfl
  | append_singleton slippageModels slippageModel ih =>
    rw [List.foldl_concat, getModel_add, ih, List.reverse_concat, List.find?_cons]
    split
    · rename_i hof
      rw [hof]
      rfl
    · rename_i hof
      rw [eq_false_of_ne_true hof]

/-- There is a model for a pair and a source. -/
def HasModel (slippageModelList : List SlippageModel) (pairKey source : String) : Prop :=
  ∃ slippageModel ∈ slippageModelList, slippageModel.isOf pairKey source = true

theorem getModel_eq_none_iff {slippageModelList : List SlippageModel} {pairKey source : String} :
    getModel (cacheOf slippageModelList) pairKey source = none ↔
      ¬ HasModel slippageModelList pairKey source := by
  rw [getModel_cacheOf, Option.map_eq_none_iff, List.find?_eq_none]
  simp [HasModel]

/-- What is found is an entry of the file, with its tokens in lower case. -/
theorem exists_of_getModel {slippageModelList : List SlippageModel} {pairKey source : String}
    {found : SlippageModel} (h : getModel (cacheOf slippageModelList) pairKey source = some found) :
    ∃ slippageModel ∈ slippageModelList,
      slippageModel.isOf pairKey source = true ∧ found = slippageModel.cached := by
  rw [getModel_cacheOf] at h
  obtain ⟨slippageModel, hfind, rfl⟩ := Option.map_eq_some_iff.mp h
  exact ⟨slippageModel, List.mem_reverse.mp (List.mem_of_find?_eq_some hfind),
    List.find?_some hfind, rfl⟩

/-- The tokens of the models of a file are addresses. -/
theorem isAddress_of_parse {isAddress : String → Bool} {content : FileContent}
    {slippageModelList : List SlippageModel}
    (h : parseSlippageModels isAddress content = .ok slippageModelList)
    {slippageModel : SlippageModel} (hmem : slippageModel ∈ slippageModelList) :
    isAddress slippageModel.token0 = true ∧ isAddress slippageModel.token1 = true := by
  cases content with
  | notJson => cases h
  | notArray => cases h
  | array elements =>
    obtain ⟨element, _, hvalidate⟩ := exists_of_mem_right (mapM_eq_ok_iff.mp h) hmem
    unfold ParsedModel.validate at hvalidate
    split at hvalidate
    · split at hvalidate
      · rename_i haddress
        cases hvalidate
        exact Bool.and_eq_true_iff.mp haddress
      · cases hvalidate
    · cases hvalidate

end ZeroExApi
