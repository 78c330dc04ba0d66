/-
# ZeroExApi.SourceRequests — the sources a request names, and who makes it

The source lists of `parse_utils.ts` and the integrators of `config.ts`.  A list is read for the
sources it names; what names none is passed over, so a list of unknown names is no list at all.
Market makers are asked for by a name of their own, `RFQT`, which takes a key that is known.

The keys of all integrators make one map.  Where no key and no id is used twice, a key that may ask
makers is the key of an integrator who may (`integrator_of_whitelisted`).
-/

import ZeroExApi.SourceFilters

namespace ZeroExApi.SourceRequests

open ZeroExApi.Lib
open ZeroExApi.SourceFilters (members)

/-! ## Errors -/

/-- `ValidationErrorCodes`, the ones a request can meet. -/
inductive ValidationErrorCode where
  | requiredField
  | incorrectFormat
  | valueOutOfRange
  | unsupportedOption
  | fieldInvalid
  deriving DecidableEq

/-- `ValidationErrorItem`. -/
structure ValidationErrorItem where
  field : String
  code : ValidationErrorCode
  reason : String
  description : Option String := none
  deriving DecidableEq

/-! ## Lists of sources -/

/-- `split(',')`. -/
def splitCommas (text : String) : List String := (text.toList.splitOn ',').map String.ofList

/-- The ids in a parameter; an empty one counts as missing. -/
def sourceIds (parameter : Option String) : List String :=
  match parameter with
  | none => []
  | some text => if text = "" then [] else splitCommas text

/-- The source with a value. -/
def sourceOfValue (id : String) : Option ERC20BridgeSource :=
  members.find? fun source => source.value == id

/-- `parseStringArrForERC20BridgeSources`; the keys of an object are without repetition. -/
def parseStringArrForERC20BridgeSources (sources : List String) : List ERC20BridgeSource :=
  (JsSet.ofList
    ((sources.map fun source => if source = "0x" then "Native" else source).filterMap
      sourceOfValue)).elements

/-! ## Requests -/

/-- The two endpoints. -/
inductive Endpoint where
  | price
  | quote
  deriving DecidableEq

/-- `ParseRequestForExcludedSourcesParams`. -/
structure ParseRequestForExcludedSourcesParams where
  takerAddress : Option String
  excludedSources : Option String
  includedSources : Option String
  intentOnFilling : Option String
  apiKey : Option String

/-- `ParseRequestForExcludedSourcesResult`. -/
structure ParseRequestForExcludedSourcesResult where
  excludedSources : List ERC20BridgeSource
  includedSources : List ERC20BridgeSource
  nativeExclusivelyRFQT : Bool

/-- What a request for makers has to come with. -/
def validateRFQTRequest (request : ParseRequestForExcludedSourcesParams)
    (validApiKeys : List String) (endpoint : Endpoint) : Except (List ValidationErrorItem) Unit :=
  if request.takerAddress = none then
    .error [{ field := "takerAddress", code := .requiredField, reason := "TAKER_ADDRESS_INVALID" }]
  else
    match request.apiKey with
    | none =>
      .error [{ field := "0x-api-key", code := .requiredField, reason := "INVALID_API_KEY" }]
    | some apiKey =>
      if apiKey ∉ validApiKeys then
        .error [{ field := "0x-api-key", code := .fieldInvalid, reason := "INVALID_API_KEY" }]
      else if endpoint = .quote ∧ request.intentOnFilling ≠ some "true" then
        -- a firm quote is made for those who mean to fill it
        .error
          [{ field := "intentOnFilling"
             code := .requiredField
             reason := "REQUIRES_INTENT_ON_FILLING" }]
      else
        .ok ()

/-- `parseRequestForExcludedSources`. -/
def parseRequestForExcludedSources (request : ParseRequestForExcludedSourcesParams)
    (validApiKeys : List String) (endpoint : Endpoint) :
    Except (List ValidationErrorItem) ParseRequestForExcludedSourcesResult :=
  let excludedIds := sourceIds request.excludedSources
  let includedIds := sourceIds request.includedSources
  if excludedIds.length ≠ 0 ∧ includedIds.length ≠ 0 then
    .error
      (["excludedSources", "includedSources"].map fun field =>
        { field := field
          code := .incorrectFormat
          reason := "CONFLICTING_FILTERING_ARGUMENTS" })
  else if excludedIds.length > 0 then
    .ok
      { excludedSources := parseStringArrForERC20BridgeSources excludedIds
        includedSources := []
        nativeExclusivelyRFQT :=
          excludedIds.contains "Mesh" && !excludedIds.contains "0x" &&
            !excludedIds.contains "Native" }
  else if includedIds.contains "RFQT" then
    (validateRFQTRequest request validApiKeys endpoint).map fun _ =>
      { excludedSources := []
        includedSources := parseStringArrForERC20BridgeSources ("0x" :: includedIds)
        nativeExclusivelyRFQT := !includedIds.contains "0x" && !includedIds.contains "Native" }
  else
    .ok
      { excludedSources := []
        includedSources := parseStringArrForERC20BridgeSources includedIds
        nativeExclusivelyRFQT := false }

/-! ## Integrators -/

/-- `Integrator`. -/
structure Integrator where
  apiKeys : List String
  integratorId : String
  label : String
  rfqt : Bool
  slippageModel : Bool := false
  positiveSlippagePercent : Option ℚ := none
  feeRecipient : Option String := none
  deriving DecidableEq

/-- `transformIntegratorsAcl`, by the keys that an integrator has. -/
def transformIntegratorsAcl (integrators : List Integrator) (mapKeys : Integrator → List String) :
    JsMap String Integrator :=
  JsMap.empty.setAll
    (integrators.flatMap fun integrator => (mapKeys integrator).map fun key => (key, integrator))

/-- `getIntegratorIdForApiKey`. -/
def getIntegratorIdForApiKey (integrators : List Integrator) (apiKey : String) : Option String :=
  ((transformIntegratorsAcl integrators Integrator.apiKeys).get apiKey).map Integrator.integratorId

/-- `getIntegratorByIdOrThrow`. -/
def getIntegratorByIdOrThrow (integrators : List Integrator) (integratorId : String) :
    Except JsError Integrator :=
  match (transformIntegratorsAcl integrators fun i => [i.integratorId]).get integratorId with
  | some integrator => .ok integrator
  | none => .error (.error ("Integrator " ++ integratorId ++ " does not exist."))

/-- `getIntegratorIdFromLabel`. -/
def getIntegratorIdFromLabel (integrators : List Integrator) (label : String) : Option String :=
  (integrators.find? fun integrator => integrator.label == label).map Integrator.integratorId

/-- `RFQT_API_KEY_WHITELIST`, which is only ever searched. -/
def RFQT_API_KEY_WHITELIST (integrators : List Integrator) : List String :=
  (integrators.filter Integrator.rfqt).flatMap Integrator.apiKeys

/-- `RFQT_INTEGRATOR_IDS`. -/
def RFQT_INTEGRATOR_IDS (integrators : List Integrator) : List String :=
  (integrators.filter Integrator.rfqt).map Integrator.integratorId

/-! ## What a list names -/

/-- A list names a source by its value, and native liquidity also as the protocol itself. -/
def Names (ids : List String) (source : ERC20BridgeSource) : Prop :=
  source.value ∈ ids ∨ (source = .native ∧ "0x" ∈ ids)

/-- Each source is found by its value. -/
theorem sourceOfValue_value (source : ERC20BridgeSource) :
    sourceOfValue source.value = some source := by
  cases source <;> rfl

theorem sourceOfValue_eq_some_iff {id : String} {source : ERC20BridgeSource} :
    sourceOfValue id = some source ↔ source.value = id := by
  constructor
  · intro h
    unfold sourceOfValue at h
    have hvalue := List.find?_some h
    exact eq_of_beq hvalue
  · rintro rfl
    exact sourceOfValue_value source

theorem value_injective : Function.Injective ERC20BridgeSource.value := by
  intro source other h
  have hfound := sourceOfValue_value source
  rw [h, sourceOfValue_value other] at hfound
  exact (Option.some.inj hfound).symm

/-- A list is read for the sources it names. -/
theorem mem_parseStringArr {ids : List String} {source : ERC20BridgeSource} :
    source ∈ parseStringArrForERC20BridgeSources ids ↔ Names ids source := by
  unfold parseStringArrForERC20BridgeSources Names
  rw [JsSet.mem_ofList, List.filterMap_map, List.mem_filterMap]
  simp only [Function.comp_apply, sourceOfValue_eq_some_iff]
  have hvalue : source.value ≠ "0x" := by cases source <;> decide
  constructor
  · rintro ⟨id, hid, h⟩
    split at h
    · rename_i hzero
      have hnative : source = .native := value_injective h
      exact .inr ⟨hnative, hzero ▸ hid⟩
    · exact .inl (h ▸ hid)
  · rintro (hmem | ⟨rfl, hmem⟩)
    · exact ⟨source.value, hmem, by rw [if_neg hvalue]⟩
    · exact ⟨"0x", hmem, rfl⟩

/-- Naming the protocol names native liquidity and nothing else. -/
theorem names_cons_zeroEx {ids : List String} {source : ERC20BridgeSource} :
    Names ("0x" :: ids) source ↔ source = .native ∨ Names ids source := by
  have hvalue : source.value ≠ "0x" := by cases source <;> decide
  unfold Names
  simp only [List.mem_cons, true_or, and_true, hvalue, false_or]
  constructor
  · rintro (hmem | hnative)
    · exact .inr (.inl hmem)
    · exact .inl hnative
  · rintro (hnative | hmem | ⟨hnative, _⟩)
    · exact .inr hnative
    · exact .inl hmem
    · exact .inr hnative

/-! ## What a request says of a source -/

/-- What the parameters of a request say of a source.  A list of excluded sources rules out what it
names.  A list of included sources rules out what it does not name, if it names any; and with a name
for market makers it names native liquidity. -/
structure Requested (request : ParseRequestForExcludedSourcesParams) (source : ERC20BridgeSource) :
    Prop where
  notExcluded : ¬ Names (sourceIds request.excludedSources) source
  included : Names (sourceIds request.includedSources) source ∨
    ("RFQT" ∈ sourceIds request.includedSources ∧ source = .native) ∨
    ("RFQT" ∉ sourceIds request.includedSources ∧
      ∀ other, ¬ Names (sourceIds request.includedSources) other)

/-- Another name at the end of a list. -/
theorem sourceIds_append {text : String} (hne : text ≠ "") {name : List Char}
    (hname : ',' ∉ name) :
    sourceIds (some (text ++ String.ofList (',' :: name))) =
      sourceIds (some text) ++ [String.ofList name] := by
  have hlonger : text ++ String.ofList (',' :: name) ≠ "" := by
    intro h
    have hnil := congrArg String.toList h
    simp at hnil
  unfold sourceIds
  dsimp only
  rw [if_neg hne, if_neg hlonger]
  unfold splitCommas
  rw [String.toList_append, String.toList_ofList, List.splitOn_append_cons_self,
    List.splitOn_eq_singleton hname, List.map_append]
  rfl

/-- A source that is named twice is read once. -/
theorem parseStringArr_append_zeroEx (ids : List String) :
    parseStringArrForERC20BridgeSources ("0x" :: (ids ++ ["0x"])) =
      parseStringArrForERC20BridgeSources ("0x" :: ids) := by
  have hmem : ERC20BridgeSource.native ∈ parseStringArrForERC20BridgeSources ("0x" :: ids) :=
    mem_parseStringArr.mpr (names_cons_zeroEx.mpr (.inl rfl))
  unfold parseStringArrForERC20BridgeSources at hmem ⊢
  rw [← List.cons_append, List.map_append, List.filterMap_append]
  unfold JsSet.ofList at hmem ⊢
  rw [List.foldl_append]
  exact if_pos hmem

section Requests

variable {request : ParseRequestForExcludedSourcesParams} {validApiKeys : List String}
  {endpoint : Endpoint} {result : ParseRequestForExcludedSourcesResult}

theorem not_names_nil (source : ERC20BridgeSource) : ¬ Names [] source := by
  rintro (hmem | ⟨_, hmem⟩)
  · cases hmem
  · cases hmem

/-- What a list is read for permits what it names, and everything where it names nothing. -/
theorem permits_parseStringArr {ids : List String} {source : ERC20BridgeSource} :
    SourceFilters.Permits (parseStringArrForERC20BridgeSources ids) source ↔
      (∀ other, ¬ Names ids other) ∨ Names ids source := by
  unfold SourceFilters.Permits
  rw [mem_parseStringArr, List.eq_nil_iff_forall_not_mem]
  exact or_congr (forall_congr' fun other => not_congr mem_parseStringArr) Iff.rfl

/-- A request is read for the sources it asks for. -/
theorem requested_iff
    (h : parseRequestForExcludedSources request validApiKeys endpoint = .ok result)
    {source : ERC20BridgeSource} :
    source ∉ result.excludedSources ∧ SourceFilters.Permits result.includedSources source ↔
      Requested request source := by
  have hrequested : Requested request source ↔
      ¬ Names (sourceIds request.excludedSources) source ∧
        (Names (sourceIds request.includedSources) source ∨
          ("RFQT" ∈ sourceIds request.includedSources ∧ source = .native) ∨
          ("RFQT" ∉ sourceIds request.includedSources ∧
            ∀ other, ¬ Names (sourceIds request.includedSources) other)) :=
    ⟨fun h => ⟨h.1, h.2⟩, fun h => ⟨h.1, h.2⟩⟩
  rw [hrequested]
  unfold parseRequestForExcludedSources at h
  dsimp only at h
  split at h
  · cases h
  · rename_i hconflict
    rw [not_and_or, not_not, not_not, List.length_eq_zero_iff, List.length_eq_zero_iff] at hconflict
    split at h
    · -- sources are excluded, so none are included
      rename_i hexcluded
      have hincluded := hconflict.resolve_left (List.ne_nil_of_length_pos hexcluded)
      cases h
      rw [hincluded, mem_parseStringArr]
      have hnil := not_names_nil
      simp [SourceFilters.Permits, hnil]
    · rename_i hexcluded
      have hnone : sourceIds request.excludedSources = [] :=
        List.eq_nil_of_length_eq_zero (by omega)
      rw [hnone]
      split at h
      · -- makers are asked for, so native liquidity is named
        rename_i hrfqt
        have hrfqt : "RFQT" ∈ sourceIds request.includedSources := by simpa using hrfqt
        cases hvalid : validateRFQTRequest request validApiKeys endpoint with
        | error items =>
          rw [hvalid] at h
          cases h
        | ok u =>
          rw [hvalid] at h
          cases h
          rw [permits_parseStringArr, names_cons_zeroEx]
          have hnative : ¬ ∀ other, ¬ Names ("0x" :: sourceIds request.includedSources) other :=
            fun hnone => hnone .native (names_cons_zeroEx.mpr (.inl rfl))
          simp only [List.not_mem_nil, not_false_eq_true, true_and, hnative, false_or, hrfqt,
            not_true_eq_false, false_and, or_false, not_names_nil]
          exact or_comm
      · rename_i hrfqt
        have hrfqt : "RFQT" ∉ sourceIds request.includedSources := by simpa using hrfqt
        cases h
        rw [permits_parseStringArr]
        simp only [List.not_mem_nil, not_false_eq_true, true_and, hrfqt, false_and, false_or,
          not_names_nil]
        exact or_comm

/-- A request for makers is let through with a taker and with a key that may ask them. -/
theorem whitelisted_of_parsed
    (h : parseRequestForExcludedSources request validApiKeys endpoint = .ok result)
    (hrfqt : "RFQT" ∈ sourceIds request.includedSources) :
    (∃ taker, request.takerAddress = some taker) ∧
      (∃ apiKey, request.apiKey = some apiKey ∧ apiKey ∈ validApiKeys) ∧
      (endpoint = .quote → request.intentOnFilling = some "true") ∧
      ERC20BridgeSource.native ∉ result.excludedSources ∧
      ERC20BridgeSource.native ∈ result.includedSources := by
  unfold parseRequestForExcludedSources at h
  dsimp only at h
  have hne : sourceIds request.includedSources ≠ [] := List.ne_nil_of_mem hrfqt
  split at h
  · cases h
  · rename_i hconflict
    rw [not_and_or, not_not, not_not, List.length_eq_zero_iff, List.length_eq_zero_iff] at hconflict
    have hnone := hconflict.resolve_right hne
    rw [hnone, if_neg (by simp), if_pos (by simpa using hrfqt)] at h
    cases hvalid : validateRFQTRequest request validApiKeys endpoint with
    | error items =>
      rw [hvalid] at h
      cases h
    | ok u =>
      rw [hvalid] at h
      cases h
      unfold validateRFQTRequest at hvalid
      split at hvalid
      · cases hvalid
      · rename_i htaker
        split at hvalid
        · cases hvalid
        · rename_i apiKey hapiKey
          split at hvalid
          · cases hvalid
          · rename_i hwhitelisted
            split at hvalid
            · cases hvalid
            · rename_i hintent
              refine ⟨Option.ne_none_iff_exists'.mp htaker,
                ⟨apiKey, hapiKey, not_not.mp hwhitelisted⟩, ?_, List.not_mem_nil,
                mem_parseStringArr.mpr (names_cons_zeroEx.mpr (.inl rfl))⟩
              intro hquote
              by_contra hnot
              exact hintent ⟨hquote, hnot⟩

end Requests

/-! ## Whose key it is -/

/-- Integrators of whom no two share a key or an id, of which none is empty. -/
structure DistinctIntegrators (integrators : List Integrator) : Prop where
  keys : (integrators.flatMap Integrator.apiKeys).Nodup
  ids : (integrators.map Integrator.integratorId).Nodup
  keyed : "" ∉ integrators.flatMap Integrator.apiKeys
  named : ∀ integrator ∈ integrators, integrator.integratorId ≠ ""

section Integrators

variable {integrators : List Integrator} {integrator : Integrator}

theorem keys_entries (mapKeys : Integrator → List String) :
    (integrators.flatMap fun i => (mapKeys i).map fun key => (key, i)).map Prod.fst =
      integrators.flatMap mapKeys := by
  rw [List.map_flatMap]
  congr 1
  funext i
  rw [List.map_map]
  exact List.map_id _

/-- Of keys that are used once, each finds its integrator. -/
theorem get_transformIntegratorsAcl {mapKeys : Integrator → List String}
    (hnodup : (integrators.flatMap mapKeys).Nodup) (hmem : integrator ∈ integrators) {key : String}
    (hkey : key ∈ mapKeys integrator) :
    (transformIntegratorsAcl integrators mapKeys).get key = some integrator := by
  have hentry : (key, integrator) ∈
      integrators.flatMap fun i => (mapKeys i).map fun key => (key, i) :=
    List.mem_flatMap.mpr ⟨integrator, hmem, List.mem_map_of_mem hkey⟩
  rw [← keys_entries] at hnodup
  exact JsMap.get_setAll_of_mem JsMap.empty hnodup hentry

/-- A key that may ask makers is the key of an integrator who may, and who is found by its id. -/
theorem integrator_of_whitelisted (hdistinct : DistinctIntegrators integrators) {apiKey : String}
    (h : apiKey ∈ RFQT_API_KEY_WHITELIST integrators) :
    apiKey ≠ "" ∧ ∃ integrator,
      getIntegratorIdForApiKey integrators apiKey = some integrator.integratorId ∧
      getIntegratorByIdOrThrow integrators integrator.integratorId = .ok integrator ∧
      integrator.integratorId ≠ "" ∧
      integrator.integratorId ∈ RFQT_INTEGRATOR_IDS integrators := by
  obtain ⟨integrator, hfiltered, hkey⟩ := List.mem_flatMap.mp h
  have hmem := List.mem_of_mem_filter hfiltered
  have hids : (integrators.flatMap fun i => [i.integratorId]).Nodup := by
    rw [← List.map_eq_flatMap]
    exact hdistinct.ids
  refine ⟨?_, integrator, ?_, ?_, hdistinct.named integrator hmem, List.mem_map_of_mem hfiltered⟩
  · rintro rfl
    exact hdistinct.keyed (List.mem_flatMap.mpr ⟨integrator, hmem, hkey⟩)
  · rw [getIntegratorIdForApiKey, get_transformIntegratorsAcl hdistinct.keys hmem hkey]
    rfl
  · rw [getIntegratorByIdOrThrow,
      get_transformIntegratorsAcl hids hmem (List.mem_singleton.mpr rfl)]

end Integrators

end ZeroExApi.SourceRequests
