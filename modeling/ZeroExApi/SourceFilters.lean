/-
# ZeroExApi.SourceFilters — which sources a filter allows, and what is allowed by two merged ones

`market_operation_utils/source_filters.ts`.  A filter is three lists without repetition: the valid
sources, the excluded ones, and the ones that are included.  An empty list of valid sources, or of
included ones, stands for all sources (`Permits`).

`merge` keeps the common valid sources, and joins the other lists.  So two filters whose valid
sources have nothing in common leave an empty list, which stands for all; and of two include lists a
source has to be in one only.  `merge_isAllowed_iff` says for which filters neither matters.
-/

import ZeroExApi.Types
import ZeroExApi.Lib.JsMap

namespace ZeroExApi

open ZeroExApi.Lib

/-! ## Filters -/

/-- `SourceFilters`. -/
structure SourceFilters where
  validSources : JsSet ERC20BridgeSource
  excludedSources : JsSet ERC20BridgeSource
  includedSources : JsSet ERC20BridgeSource

namespace SourceFilters

/-- The constructor; `_.uniq` keeps the first of equal sources. -/
def create (validSources excludedSources includedSources : List ERC20BridgeSource) :
    SourceFilters :=
  ⟨JsSet.ofList validSources, JsSet.ofList excludedSources, JsSet.ofList includedSources⟩

/-- `isAllowed`. -/
def isAllowed (filters : SourceFilters) (source : ERC20BridgeSource) : Bool :=
  -- must be in the list of valid sources
  if filters.validSources.elements.length > 0 ∧ source ∉ filters.validSources.elements then
    false
  -- must not be excluded
  else if source ∈ filters.excludedSources.elements then
    false
  -- if there is an inclusion list, must be in that list
  else if filters.includedSources.elements.length > 0 ∧
      source ∉ filters.includedSources.elements then
    false
  else
    true

/-- `merge`. -/
def merge (filters other : SourceFilters) : SourceFilters :=
  let validSources :=
    if filters.validSources.elements.length = 0 then
      other.validSources.elements
    else if other.validSources.elements.length ≠ 0 then
      filters.validSources.elements.filter fun s => s ∈ other.validSources.elements
    else
      filters.validSources.elements
  create validSources
    (filters.excludedSources.elements ++ other.excludedSources.elements)
    (filters.includedSources.elements ++ other.includedSources.elements)

/-! ## What lists stand for -/

/-- A list stands for its elements, and for all sources where it has none. -/
def Permits (sources : List ERC20BridgeSource) (source : ERC20BridgeSource) : Prop :=
  sources = [] ∨ source ∈ sources

theorem isAllowed_iff {filters : SourceFilters} {source : ERC20BridgeSource} :
    filters.isAllowed source = true ↔
      Permits filters.validSources.elements source ∧
        source ∉ filters.excludedSources.elements ∧
          Permits filters.includedSources.elements source := by
  have hpermits : ∀ sources : List ERC20BridgeSource,
      ¬ (sources.length > 0 ∧ source ∉ sources) ↔ Permits sources source := by
    intro sources
    rw [Permits, not_and_or, not_not, gt_iff_lt, List.length_pos_iff, not_not]
  rw [← hpermits, ← hpermits]
  unfold isAllowed
  split
  · rename_i hvalid
    exact iff_of_false (by simp) fun h => h.1 hvalid
  · rename_i hvalid
    split
    · rename_i hexcluded
      exact iff_of_false (by simp) fun h => h.2.1 hexcluded
    · rename_i hexcluded
      split
      · rename_i hincluded
        exact iff_of_false (by simp) fun h => h.2.2 hincluded
      · rename_i hincluded
        exact iff_of_true rfl ⟨hvalid, hexcluded, hincluded⟩

theorem permits_ofList {sources : List ERC20BridgeSource} {source : ERC20BridgeSource} :
    Permits (JsSet.ofList sources).elements source ↔ Permits sources source := by
  have hnil : (JsSet.ofList sources).elements = [] ↔ sources = [] := by
    rw [List.eq_nil_iff_forall_not_mem, List.eq_nil_iff_forall_not_mem]
    exact forall_congr' fun s => not_congr JsSet.mem_ofList
  unfold Permits
  rw [hnil, JsSet.mem_ofList]

theorem permits_append {xs ys : List ERC20BridgeSource} {source : ERC20BridgeSource} :
    Permits (xs ++ ys) source ↔ (xs = [] ∧ ys = []) ∨ source ∈ xs ∨ source ∈ ys := by
  rw [Permits, List.append_eq_nil_iff, List.mem_append]

/-! ## Merged lists -/

/-- Both filters have valid sources, but none in common. -/
def NothingInCommon (a b : SourceFilters) : Prop :=
  a.validSources.elements ≠ [] ∧ b.validSources.elements ≠ [] ∧
    ∀ s ∈ a.validSources.elements, s ∉ b.validSources.elements

/-- One of the filters excludes a source. -/
def Excludes (a b : SourceFilters) (source : ERC20BridgeSource) : Prop :=
  source ∈ a.excludedSources.elements ∨ source ∈ b.excludedSources.elements

variable {a b : SourceFilters} {source : ERC20BridgeSource}

/-- The merged valid sources are the common ones; where there are none, all. -/
theorem permits_merge_validSources :
    Permits (a.merge b).validSources.elements source ↔
      NothingInCommon a b ∨
        (Permits a.validSources.elements source ∧ Permits b.validSources.elements source) := by
  unfold merge create
  dsimp only
  rw [permits_ofList]
  by_cases ha : a.validSources.elements = []
  · rw [if_pos (by rw [ha]; rfl)]
    have hcommon : ¬ NothingInCommon a b := fun h => h.1 ha
    simp [Permits, ha, hcommon]
  · rw [if_neg (by rwa [List.length_eq_zero_iff])]
    by_cases hb : b.validSources.elements = []
    · rw [if_neg (by rw [hb]; simp)]
      have hcommon : ¬ NothingInCommon a b := fun h => h.2.1 hb
      simp [Permits, ha, hb, hcommon]
    · rw [if_pos (by rwa [Ne, List.length_eq_zero_iff])]
      have hnil : (a.validSources.elements.filter fun s => s ∈ b.validSources.elements) = [] ↔
          NothingInCommon a b := by
        rw [List.filter_eq_nil_iff]
        simp [NothingInCommon, ha, hb]
      unfold Permits
      rw [hnil, List.mem_filter, decide_eq_true_iff]
      simp [ha, hb]

theorem merge_isAllowed :
    (a.merge b).isAllowed source = true ↔
      (NothingInCommon a b ∨
          (Permits a.validSources.elements source ∧ Permits b.validSources.elements source)) ∧
        ¬ Excludes a b source ∧
          Permits (a.includedSources.elements ++ b.includedSources.elements) source := by
  rw [isAllowed_iff, permits_merge_validSources]
  unfold merge create
  dsimp only
  rw [permits_ofList, JsSet.mem_ofList, List.mem_append]
  rfl

/-- Valid sources with nothing in common allow none together. -/
theorem not_both_valid (h : NothingInCommon a b) :
    ¬ (Permits a.validSources.elements source ∧ Permits b.validSources.elements source) := by
  obtain ⟨ha, hb, hcommon⟩ := h
  rintro ⟨hinA, hinB⟩
  exact hcommon source (hinA.resolve_left ha) (hinB.resolve_left hb)

/-! ## Merging as intersection -/

/-- The lists of two filters say the same joined as they do apart: where the valid sources have
nothing in common, no source is left that is not excluded; otherwise, where both filters have
include lists, a source that is otherwise allowed is in both or in neither. -/
structure ListsAgree (a b : SourceFilters) : Prop where
  nothingLeft : NothingInCommon a b → ∀ s, ¬ Excludes a b s →
    ¬ Permits (a.includedSources.elements ++ b.includedSources.elements) s
  sameIncluded : ¬ NothingInCommon a b → a.includedSources.elements ≠ [] →
    b.includedSources.elements ≠ [] → ∀ s, Permits a.validSources.elements s →
      Permits b.validSources.elements s → ¬ Excludes a b s →
        (s ∈ a.includedSources.elements ↔ s ∈ b.includedSources.elements)

/-- Two include lists that agree on a source permit it together as they do apart. -/
theorem permits_append_iff {xs ys : List ERC20BridgeSource}
    (h : xs ≠ [] → ys ≠ [] → (source ∈ xs ↔ source ∈ ys)) :
    Permits (xs ++ ys) source ↔ Permits xs source ∧ Permits ys source := by
  rw [permits_append]
  unfold Permits
  by_cases hx : xs = []
  · simp [hx]
  · by_cases hy : ys = []
    · simp [hx, hy]
    · simp [hx, hy, h hx hy]

/-- A merged filter allows what both filters allow exactly if their lists agree. -/
theorem merge_isAllowed_iff (a b : SourceFilters) :
    (∀ s, (a.merge b).isAllowed s = true ↔ a.isAllowed s = true ∧ b.isAllowed s = true) ↔
      ListsAgree a b := by
  constructor
  · intro h
    constructor
    · -- with nothing in common, no source is valid in both
      intro hcommon s hexcluded hincluded
      have hboth := (h s).mp (merge_isAllowed.mpr ⟨.inl hcommon, hexcluded, hincluded⟩)
      exact not_both_valid hcommon
        ⟨(isAllowed_iff.mp hboth.1).1, (isAllowed_iff.mp hboth.2).1⟩
    · intro hcommon ha hb s hvalidA hvalidB hexcluded
      have hmerged : Permits (a.includedSources.elements ++ b.includedSources.elements) s →
          Permits a.includedSources.elements s ∧ Permits b.includedSources.elements s := by
        intro hincluded
        have hboth :=
          (h s).mp (merge_isAllowed.mpr ⟨.inr ⟨hvalidA, hvalidB⟩, hexcluded, hincluded⟩)
        exact ⟨(isAllowed_iff.mp hboth.1).2.2, (isAllowed_iff.mp hboth.2).2.2⟩
      constructor
      · intro hmem
        exact (hmerged (permits_append.mpr (.inr (.inl hmem)))).2.resolve_left hb
      · intro hmem
        exact (hmerged (permits_append.mpr (.inr (.inr hmem)))).1.resolve_left ha
  · intro hagree s
    rw [merge_isAllowed, isAllowed_iff, isAllowed_iff]
    by_cases hcommon : NothingInCommon a b
    · refine iff_of_false ?_ ?_
      · rintro ⟨_, hexcluded, hincluded⟩
        exact hagree.nothingLeft hcommon s hexcluded hincluded
      · rintro ⟨⟨hvalidA, _⟩, hvalidB, _⟩
        exact not_both_valid hcommon ⟨hvalidA, hvalidB⟩
    · constructor
      · rintro ⟨hvalid, hexcluded, hincluded⟩
        obtain ⟨hvalidA, hvalidB⟩ := hvalid.resolve_left hcommon
        rw [permits_append_iff fun ha hb =>
          hagree.sameIncluded hcommon ha hb s hvalidA hvalidB hexcluded] at hincluded
        rw [Excludes, not_or] at hexcluded
        exact ⟨⟨hvalidA, hexcluded.1, hincluded.1⟩, hvalidB, hexcluded.2, hincluded.2⟩
      · rintro ⟨⟨hvalidA, hexcludedA, hincludedA⟩, hvalidB, hexcludedB, hincludedB⟩
        have hexcluded : ¬ Excludes a b s := not_or.mpr ⟨hexcludedA, hexcludedB⟩
        refine ⟨.inr ⟨hvalidA, hvalidB⟩, hexcluded, ?_⟩
        rw [permits_append_iff fun ha hb =>
          hagree.sameIncluded hcommon ha hb s hvalidA hvalidB hexcluded]
        exact ⟨hincludedA, hincludedB⟩

/-- Filters for Uniswap V2 alone and for Curve alone allow everything once they are merged, if they
are valid lists, and both sources if they are include lists. -/
theorem merged_allows_more :
    ((create [.uniswapV2] [] []).merge (create [.curve] [] [])).isAllowed .balancer = true ∧
      (create [.uniswapV2] [] []).isAllowed .balancer = false ∧
      ((create [] [] [.uniswapV2]).merge (create [] [] [.curve])).isAllowed .curve = true ∧
      (create [] [] [.uniswapV2]).isAllowed .curve = false := by
  decide

/-! ## The sources of a request -/

/-- The members of `ERC20BridgeSource`. -/
def members : List ERC20BridgeSource :=
  [.native, .uniswap, .uniswapV2, .curve, .balancer, .balancerV2, .bancor, .makerPsm, .mStable,
    .mooniswap, .multiHop, .shell, .sushiSwap, .dodo, .dodoV2, .cryptoCom, .kyberDmm, .component,
    .saddle, .uniswapV3, .curveV2, .lido, .shibaSwap, .aaveV2, .aaveV3, .compound, .synapse,
    .bancorV3, .synthetix, .wooFi, .pancakeSwap, .pancakeSwapV2, .biSwap, .mDex, .knightSwap,
    .bakerySwap, .nerve, .belt, .ellipsis, .apeSwap, .aCryptos, .quickSwap, .dfyn, .waultSwap,
    .firebirdOneSwap, .ironSwap, .meshSwap, .dystopia, .pangolin, .traderJoe, .platypus, .gmx,
    .ubeSwap, .mobiusMoney, .spiritSwap, .spookySwap, .beethovenx, .morpheusSwap, .yoshi,
    .velodrome]

/-- `all`. -/
def all : SourceFilters := create members [] []

/-- `getAllowed`. -/
def getAllowed (filters : SourceFilters) (sources : List ERC20BridgeSource) :
    List ERC20BridgeSource :=
  sources.filter fun s => filters.isAllowed s

/-- The getter `sources`. -/
def sources (filters : SourceFilters) : List ERC20BridgeSource :=
  filters.validSources.elements.filter fun s => filters.isAllowed s

/-- `exclude`. -/
def exclude (filters : SourceFilters) (sources : List ERC20BridgeSource) : SourceFilters :=
  create filters.validSources.elements (filters.excludedSources.elements ++ sources)
    filters.includedSources.elements

/-- `include`. -/
def includeSources (filters : SourceFilters) (sources : List ERC20BridgeSource) : SourceFilters :=
  create filters.validSources.elements filters.excludedSources.elements
    (filters.includedSources.elements ++ sources)

/-- The filter that a request puts on what is valid of a chain. -/
def ofRequest (validSources excludedSources includedSources : List ERC20BridgeSource) :
    SourceFilters :=
  (create validSources [] []).merge
    (((create [] [] []).exclude excludedSources).includeSources includedSources)

theorem mem_of_mem_getAllowed {filters : SourceFilters} {sources : List ERC20BridgeSource}
    (h : source ∈ filters.getAllowed sources) : source ∈ sources :=
  List.mem_of_mem_filter h

section Request

variable {validSources excludedSources includedSources : List ERC20BridgeSource}

theorem ofList_nil : (JsSet.ofList ([] : List ERC20BridgeSource)).elements = [] := rfl

/-- The filter of a request has no valid sources of its own. -/
theorem validSources_request :
    (((create [] [] []).exclude excludedSources).includeSources
      includedSources).validSources.elements = [] := rfl

/-- A request has the sources that are valid, not excluded, and included if any are. -/
theorem ofRequest_isAllowed :
    (ofRequest validSources excludedSources includedSources).isAllowed source = true ↔
      Permits validSources source ∧ source ∉ excludedSources ∧
        Permits includedSources source := by
  unfold ofRequest
  rw [merge_isAllowed]
  simp only [NothingInCommon, Excludes, create, exclude, includeSources, permits_ofList, ofList_nil,
    List.nil_append, JsSet.mem_ofList, List.not_mem_nil, false_or]
  simp [Permits]

/-- What is valid of a chain, merged with a filter that names no valid sources itself. -/
theorem merge_create_isAllowed :
    ((create validSources [] []).merge (create [] excludedSources includedSources)).isAllowed
        source = true ↔
      Permits validSources source ∧ source ∉ excludedSources ∧
        Permits includedSources source := by
  rw [merge_isAllowed]
  simp only [NothingInCommon, Excludes, create, permits_ofList, ofList_nil, List.nil_append,
    JsSet.mem_ofList, List.not_mem_nil, false_or]
  simp [Permits]

theorem validSources_ofRequest :
    source ∈ (ofRequest validSources excludedSources includedSources).validSources.elements ↔
      source ∈ validSources := by
  unfold ofRequest merge
  rw [validSources_request]
  change source ∈ (JsSet.ofList (ite _ _ _)).elements ↔ _
  rw [JsSet.mem_ofList]
  split
  · rename_i hnil
    rw [List.length_eq_zero_iff] at hnil
    rw [← hnil]
    exact JsSet.mem_ofList
  · rw [if_neg (by simp)]
    exact JsSet.mem_ofList

/-- The sources that are asked for a request. -/
theorem mem_sources_ofRequest :
    source ∈ (ofRequest validSources excludedSources includedSources).sources ↔
      source ∈ validSources ∧ source ∉ excludedSources ∧ Permits includedSources source := by
  unfold sources
  rw [List.mem_filter, validSources_ofRequest, ofRequest_isAllowed]
  constructor
  · rintro ⟨hmem, _, hexcluded, hincluded⟩
    exact ⟨hmem, hexcluded, hincluded⟩
  · rintro ⟨hmem, hexcluded, hincluded⟩
    exact ⟨hmem, .inr hmem, hexcluded, hincluded⟩

end Request

end SourceFilters

end ZeroExApi
