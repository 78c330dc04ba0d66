/-
# ZeroExApi.SlippageModelRefresh — overlapping refreshes of the cached slippage models

`_refreshAsync` of `utils/slippage_model_manager.ts` over `utils/s3_client.ts`.  A refresh asks the
store whether the file is there, and for its content when it is newer than what is cached.  Both
requests are served at one moment and answered at a later one, and refreshes are started by a timer
without waiting for earlier ones, so a run is any interleaving of these steps with writes of newer
versions of the file.

What is cached is always what was read of the recorded version, and a step that neither resets nor
loads leaves it alone.  The version that is recorded may go back, because nothing is checked after
the second request: this happens exactly when the content for a refresh is overtaken, that is, a
newer version is loaded while the content is on its way (`refreshSpec_iff_noOvertaking`).
-/

import ZeroExApi.SlippageModelManager
import ZeroExApi.Lib.Transition

namespace ZeroExApi.SlippageModelRefresh

open ZeroExApi.Lib ZeroExApi.Lib.Transition

/-! ## The manager and the file -/

/-- A version of the file: when it was written, in milliseconds since 1970, and its content. -/
structure FileVersion where
  lastModified : ℕ
  content : FileContent

/-- Where a run of `_refreshAsync` stands.  A request is on its way to the store, or its answer is
on its way back. -/
inductive Phase where
  | checking (refreshTime : ℕ)
  | checked (refreshTime : ℕ) (lastModified : Option ℕ)
  | reading
  | read (version : FileVersion)
  | finished
  | failed

/-- The two fields of the manager, the runs that were started, the file, and all versions of it that
were written, the newest first. -/
structure ManagerState where
  cachedSlippageModel : SlippageModelCache
  lastRefreshed : ℕ
  runs : List Phase
  file : Option FileVersion
  written : List FileVersion

/-- `SLIPPAGE_MODEL_S3_FILE_VALID_INTERVAL_MS`: two hours. -/
def SLIPPAGE_MODEL_S3_FILE_VALID_INTERVAL_MS : ℕ := 7200000

/-- A manager before its first refresh. -/
def initial : ManagerState where
  cachedSlippageModel := .empty
  lastRefreshed := 0
  runs := []
  file := none
  written := []

/-- What can happen next: the file is written or deleted, a refresh is started, one of its requests
is served or answered, or its request fails. -/
inductive Event where
  | write (version : FileVersion)
  | delete
  | start (refreshTime : ℕ)
  | serveCheck (id : ℕ)
  | answerCheck (id : ℕ)
  | serveContent (id : ℕ)
  | answerContent (id : ℕ)
  | fail (id : ℕ)

namespace ManagerState

/-- A run in its next phase. -/
def setPhase (s : ManagerState) (id : ℕ) (phase : Phase) : ManagerState :=
  { s with runs := s.runs.set id phase }

/-- `_resetCache`. -/
def resetCache (s : ManagerState) : ManagerState :=
  { s with
    cachedSlippageModel := .empty
    lastRefreshed := 0 }

/-- `_refreshAsync` from the answer of `hasFileAsync` on. -/
def afterCheck (s : ManagerState) (id refreshTime : ℕ) (lastModified : Option ℕ) : ManagerState :=
  match lastModified with
  | none => (s.setPhase id .finished).resetCache
  | some lastModified =>
    if lastModified + SLIPPAGE_MODEL_S3_FILE_VALID_INTERVAL_MS < refreshTime then
      (s.setPhase id .finished).resetCache
    else if lastModified ≤ s.lastRefreshed then
      s.setPhase id .finished
    else
      s.setPhase id .reading

/-- `_refreshAsync` from the answer of `getFileContentAsync` on. -/
def afterContent (isAddress : String → Bool) (s : ManagerState) (id : ℕ) (version : FileVersion) :
    ManagerState :=
  match createSlippageModelCache isAddress version.content with
  | .error _ => s.setPhase id .failed
  | .ok cache =>
    { s.setPhase id .finished with
      cachedSlippageModel := cache
      lastRefreshed := version.lastModified }

/-- A version is newer than all versions before. -/
def isNewer (s : ManagerState) (version : FileVersion) : Bool :=
  s.written.all fun earlier => decide (earlier.lastModified < version.lastModified)

end ManagerState

open ManagerState

/-- One step.  An event that the state does not allow leaves it as it is. -/
def step (isAddress : String → Bool) (s : ManagerState) : Event → ManagerState
  | .write version =>
    if s.isNewer version then
      { s with
        file := some version
        written := version :: s.written }
    else
      s
  | .delete => { s with file := none }
  | .start refreshTime => { s with runs := s.runs ++ [.checking refreshTime] }
  | .serveCheck id =>
    match s.runs[id]? with
    | some (.checking refreshTime) =>
      s.setPhase id (.checked refreshTime (s.file.map FileVersion.lastModified))
    | _ => s
  | .answerCheck id =>
    match s.runs[id]? with
    | some (.checked refreshTime lastModified) => s.afterCheck id refreshTime lastModified
    | _ => s
  | .serveContent id =>
    match s.runs[id]?, s.file with
    | some .reading, some version => s.setPhase id (.read version)
    | some .reading, none => s.setPhase id .failed
    | _, _ => s
  | .answerContent id =>
    match s.runs[id]? with
    | some (.read version) => s.afterContent isAddress id version
    | _ => s
  | .fail id =>
    match s.runs[id]? with
    | some (.checking _) | some (.checked _ _) | some .reading | some (.read _) =>
      s.setPhase id .failed
    | _ => s

/-! ## What a step does to the two fields -/

/-- The version that an event loads. -/
def loads (isAddress : String → Bool) (s : ManagerState) : Event → Option FileVersion
  | .answerContent id =>
    match s.runs[id]? with
    | some (.read version) =>
      match createSlippageModelCache isAddress version.content with
      | .ok _ => some version
      | .error _ => none
    | _ => none
  | _ => none

/-- An event that resets the cache: the file is missing or stale. -/
def resets (s : ManagerState) : Event → Bool
  | .answerCheck id =>
    match s.runs[id]? with
    | some (.checked _ none) => true
    | some (.checked refreshTime (some lastModified)) =>
      decide (lastModified + SLIPPAGE_MODEL_S3_FILE_VALID_INTERVAL_MS < refreshTime)
    | _ => false
  | _ => false

/-- What a step does to the two fields: it resets them, sets them to a version and what was read of
it, or leaves them as they are. -/
inductive FieldEffect (isAddress : String → Bool) (s : ManagerState) (e : Event)
    (s' : ManagerState) : Prop
  | reset (resets_eq : resets s e = true) (loads_eq : loads isAddress s e = none)
      (cached_eq : s'.cachedSlippageModel = .empty) (lastRefreshed_eq : s'.lastRefreshed = 0)
  | loaded (version : FileVersion) (resets_eq : resets s e = false)
      (loads_eq : loads isAddress s e = some version)
      (cached_eq : createSlippageModelCache isAddress version.content = .ok s'.cachedSlippageModel)
      (lastRefreshed_eq : s'.lastRefreshed = version.lastModified)
  | same (resets_eq : resets s e = false) (loads_eq : loads isAddress s e = none)
      (cached_eq : s'.cachedSlippageModel = s.cachedSlippageModel)
      (lastRefreshed_eq : s'.lastRefreshed = s.lastRefreshed)

variable (isAddress : String → Bool)

theorem step_fieldEffect (s : ManagerState) (e : Event) :
    FieldEffect isAddress s e (step isAddress s e) := by
  cases e with
  | write version =>
    refine .same rfl rfl ?_ ?_
    · show (if s.isNewer version then _ else s).cachedSlippageModel = _
      split <;> rfl
    · show (if s.isNewer version then _ else s).lastRefreshed = _
      split <;> rfl
  | delete => exact .same rfl rfl rfl rfl
  | start refreshTime => exact .same rfl rfl rfl rfl
  | serveCheck id =>
    refine .same rfl rfl ?_ ?_ <;> (simp only [step]; split <;> rfl)
  | serveContent id =>
    refine .same rfl rfl ?_ ?_ <;> (simp only [step]; split <;> rfl)
  | fail id =>
    refine .same rfl rfl ?_ ?_ <;> (simp only [step]; split <;> rfl)
  -- only the answer to a check can reset the fields
  | answerCheck id =>
    rcases hphase : s.runs[id]? with _ | phase
    · exact .same (by simp [resets, hphase]) rfl (by simp [step, hphase]) (by simp [step, hphase])
    · rcases phase with _ | ⟨refreshTime, lastModified⟩ | _ | _ | _ | _
      case checked =>
        rcases lastModified with _ | lastModified
        · exact .reset (by simp [resets, hphase]) rfl
            (by simp [step, hphase, afterCheck, resetCache])
            (by simp [step, hphase, afterCheck, resetCache])
        · by_cases hstale :
              lastModified + SLIPPAGE_MODEL_S3_FILE_VALID_INTERVAL_MS < refreshTime
          · exact .reset (by simp [resets, hphase, hstale]) rfl
              (by simp [step, hphase, afterCheck, resetCache, hstale])
              (by simp [step, hphase, afterCheck, resetCache, hstale])
          · refine .same (by simp [resets, hphase, hstale]) rfl ?_ ?_ <;>
              (simp only [step, hphase, afterCheck, hstale, if_false]; split <;> rfl)
      all_goals
        exact .same (by simp [resets, hphase]) rfl (by simp [step, hphase]) (by simp [step, hphase])
  -- and only content that parses is loaded
  | answerContent id =>
    rcases hphase : s.runs[id]? with _ | phase
    · exact .same rfl (by simp [loads, hphase]) (by simp [step, hphase]) (by simp [step, hphase])
    · rcases phase with _ | _ | _ | version | _ | _
      case read =>
        rcases hcache : createSlippageModelCache isAddress version.content with error | cache
        · exact .same rfl (by simp [loads, hphase, hcache])
            (by simp [step, hphase, afterContent, hcache, setPhase])
            (by simp [step, hphase, afterContent, hcache, setPhase])
        · exact .loaded version rfl (by simp [loads, hphase, hcache])
            (by simp [step, hphase, afterContent, hcache])
            (by simp [step, hphase, afterContent, hcache])
      all_goals
        exact .same rfl (by simp [loads, hphase]) (by simp [step, hphase]) (by simp [step, hphase])

/-! ## What a step does to the file and to the runs -/

/-- What a step does to the file: it is written, deleted or left as it is. -/
inductive FileEffect (s s' : ManagerState) : Prop
  | written (version : FileVersion) (isNewer : s.isNewer version = true)
      (file_eq : s'.file = some version) (written_eq : s'.written = version :: s.written)
  | deleted (file_eq : s'.file = none) (written_eq : s'.written = s.written)
  | same (file_eq : s'.file = s.file) (written_eq : s'.written = s.written)

theorem afterCheck_same (s : ManagerState) (id refreshTime : ℕ) (lastModified : Option ℕ) :
    FileEffect s (s.afterCheck id refreshTime lastModified) := by
  unfold afterCheck
  split
  · exact .same rfl rfl
  · split
    · exact .same rfl rfl
    · split <;> exact .same rfl rfl

theorem afterContent_same (s : ManagerState) (id : ℕ) (version : FileVersion) :
    FileEffect s (s.afterContent isAddress id version) := by
  unfold afterContent
  split <;> exact .same rfl rfl

theorem step_fileEffect (s : ManagerState) (e : Event) :
    FileEffect s (step isAddress s e) := by
  cases e with
  | write version =>
    by_cases hnewer : s.isNewer version = true
    · exact .written version hnewer (by simp [step, hnewer]) (by simp [step, hnewer])
    · exact .same (by simp [step, hnewer]) (by simp [step, hnewer])
  | delete => exact .deleted rfl rfl
  | start refreshTime => exact .same rfl rfl
  | serveCheck id =>
    simp only [step]
    split <;> exact .same rfl rfl
  | answerCheck id =>
    simp only [step]
    split
    · exact afterCheck_same s id _ _
    · exact .same rfl rfl
  | serveContent id =>
    simp only [step]
    split <;> exact .same rfl rfl
  | answerContent id =>
    simp only [step]
    split
    · exact afterContent_same isAddress s id _
    · exact .same rfl rfl
  | fail id =>
    simp only [step]
    split <;> exact .same rfl rfl

/-- A run that has not ended. -/
def Phase.isActive : Phase → Bool
  | .finished | .failed => false
  | _ => true

/-- What a step does to the runs: a run is started, or one that has not ended moves on; content that
it then has on its way back is that of the file. -/
inductive RunsEffect (s s' : ManagerState) : Prop
  | same (runs_eq : s'.runs = s.runs)
  | started (refreshTime : ℕ) (runs_eq : s'.runs = s.runs ++ [.checking refreshTime])
  | moved (id : ℕ) (before after : Phase) (phase_eq : s.runs[id]? = some before)
      (isActive : before.isActive = true) (runs_eq : s'.runs = s.runs.set id after)
      (served : ∀ version, after = .read version → s.file = some version)

theorem afterCheck_moved {s : ManagerState} {id refreshTime : ℕ} {lastModified : Option ℕ}
    (hphase : s.runs[id]? = some (Phase.checked refreshTime lastModified)) :
    RunsEffect s (s.afterCheck id refreshTime lastModified) := by
  unfold afterCheck
  split
  · exact .moved id _ .finished hphase rfl rfl nofun
  · split
    · exact .moved id _ .finished hphase rfl rfl nofun
    · split
      · exact .moved id _ .finished hphase rfl rfl nofun
      · exact .moved id _ .reading hphase rfl rfl nofun

theorem afterContent_moved {s : ManagerState} {id : ℕ} {version : FileVersion}
    (hphase : s.runs[id]? = some (Phase.read version)) :
    RunsEffect s (s.afterContent isAddress id version) := by
  unfold afterContent
  split
  · exact .moved id _ .failed hphase rfl rfl nofun
  · exact .moved id _ .finished hphase rfl rfl nofun

theorem step_runsEffect (s : ManagerState) (e : Event) :
    RunsEffect s (step isAddress s e) := by
  cases e with
  | write version =>
    simp only [step]
    split <;> exact .same rfl
  | delete => exact .same rfl
  | start refreshTime => exact .started refreshTime rfl
  | serveCheck id =>
    simp only [step]
    split
    · rename_i hphase
      exact .moved id _ _ hphase rfl rfl nofun
    · exact .same rfl
  | answerCheck id =>
    simp only [step]
    split
    · rename_i hphase
      exact afterCheck_moved hphase
    · exact .same rfl
  | serveContent id =>
    simp only [step]
    split
    · rename_i v hphase hfile
      refine .moved id _ _ hphase rfl rfl fun version hversion => ?_
      rw [hfile, Phase.read.inj hversion]
    · rename_i hphase _
      exact .moved id _ .failed hphase rfl rfl nofun
    · exact .same rfl
  | answerContent id =>
    simp only [step]
    split
    · rename_i hphase
      exact afterContent_moved isAddress hphase
    · exact .same rfl
  | fail id =>
    simp only [step]
    split
    · rename_i hphase
      exact .moved id _ .failed hphase rfl rfl nofun
    · rename_i hphase
      exact .moved id _ .failed hphase rfl rfl nofun
    · rename_i hphase
      exact .moved id _ .failed hphase rfl rfl nofun
    · rename_i hphase
      exact .moved id _ .failed hphase rfl rfl nofun
    · exact .same rfl

/-- A phase a run is in after a step: it was in it before, or the step is the run's. -/
theorem RunsEffect.phase_cases {s s' : ManagerState} (h : RunsEffect s s') {id : ℕ} {phase : Phase}
    (hphase : s'.runs[id]? = some phase) :
    s.runs[id]? = some phase ∨ (∃ refreshTime, phase = .checking refreshTime) ∨
      ∀ version, phase = .read version → s.file = some version := by
  rcases h with hruns | ⟨refreshTime, hruns⟩ | ⟨id', before, after, _, _, hruns, hserved⟩
  · exact .inl (hruns ▸ hphase)
  · rw [hruns, List.getElem?_append] at hphase
    split at hphase
    · exact .inl hphase
    · rw [List.getElem?_singleton] at hphase
      split at hphase
      · exact .inr (.inl ⟨refreshTime, (Option.some.inj hphase).symm⟩)
      · cases hphase
  · rw [hruns, List.getElem?_set] at hphase
    split at hphase
    · split at hphase
      · exact .inr (.inr (Option.some.inj hphase ▸ hserved))
      · cases hphase
    · exact .inl hphase

/-- Content on its way back to a run was on its way before, or has just been served. -/
theorem read_of_step {s : ManagerState} {e : Event} {id : ℕ} {version : FileVersion}
    (h : (step isAddress s e).runs[id]? = some (Phase.read version)) :
    s.runs[id]? = some (Phase.read version) ∨ s.file = some version := by
  rcases (step_runsEffect isAddress s e).phase_cases h with hbefore | ⟨_, hstart⟩ | hserved
  · exact .inl hbefore
  · cases hstart
  · exact .inr (hserved version rfl)

/-- A run that has ended stays as it is. -/
theorem ended_stays {s : ManagerState} {e : Event} {id : ℕ} {phase : Phase}
    (hphase : s.runs[id]? = some phase) (hended : phase.isActive = false) :
    (step isAddress s e).runs[id]? = some phase := by
  rcases step_runsEffect isAddress s e with
    hruns | ⟨refreshTime, hruns⟩ | ⟨id', before, after, hbefore, hactive, hruns, _⟩
  · rw [hruns, hphase]
  · rw [hruns, List.getElem?_append_left (List.getElem?_eq_some_iff.mp hphase).1, hphase]
  · have hne : id' ≠ id := by
      rintro rfl
      obtain rfl := Option.some.inj (hbefore.symm.trans hphase)
      rw [hactive] at hended
      cases hended
    rw [hruns, List.getElem?_set_ne hne, hphase]

/-- The file is the newest version that was written; what is on its way back to a run was written;
and what is cached is nothing, or was made of the version that is recorded. -/
structure Invariant (s : ManagerState) : Prop where
  file_newest : ∀ v, s.file = some v →
    v ∈ s.written ∧ ∀ w ∈ s.written, w.lastModified ≤ v.lastModified
  read_written : ∀ (id : ℕ) (v : FileVersion),
    s.runs[id]? = some (Phase.read v) → v ∈ s.written
  cached_loaded :
    (s.cachedSlippageModel = .empty ∧ s.lastRefreshed = 0) ∨
      ∃ v ∈ s.written, s.lastRefreshed = v.lastModified ∧
        createSlippageModelCache isAddress v.content = .ok s.cachedSlippageModel

theorem invariant_initial : Invariant isAddress initial :=
  ⟨nofun, nofun, .inl ⟨rfl, rfl⟩⟩

/-- Written versions are not forgotten. -/
theorem written_subset (s : ManagerState) (e : Event) :
    s.written ⊆ (step isAddress s e).written := by
  rcases step_fileEffect isAddress s e with
    ⟨version, _, _, hwritten⟩ | ⟨_, hwritten⟩ | ⟨_, hwritten⟩
  · rw [hwritten]
    exact List.subset_cons_self _ _
  · rw [hwritten]
    exact List.Subset.refl _
  · rw [hwritten]
    exact List.Subset.refl _

variable {isAddress}

/-- What is loaded was on its way back. -/
theorem read_of_loads {s : ManagerState} {e : Event} {version : FileVersion}
    (h : loads isAddress s e = some version) :
    ∃ id, e = .answerContent id ∧ s.runs[id]? = some (Phase.read version) := by
  unfold loads at h
  split at h
  · rename_i id
    split at h
    · rename_i v hphase
      split at h
      · obtain rfl := Option.some.inj h
        exact ⟨id, rfl, hphase⟩
      · cases h
    · cases h
  · cases h

/-- What is loaded is recorded. -/
theorem lastRefreshed_of_loads {s : ManagerState} {e : Event} {version : FileVersion}
    (h : loads isAddress s e = some version) :
    (step isAddress s e).lastRefreshed = version.lastModified := by
  rcases step_fieldEffect isAddress s e with
    ⟨_, hnone, _, _⟩ | ⟨v, _, hsome, _, hlast⟩ | ⟨_, hnone, _, _⟩
  · rw [hnone] at h
    cases h
  · obtain rfl := Option.some.inj (hsome.symm.trans h)
    exact hlast
  · rw [hnone] at h
    cases h

theorem Invariant.step {s : ManagerState} (hs : Invariant isAddress s) (e : Event) :
    Invariant isAddress (step isAddress s e) := by
  have hsubset := written_subset isAddress s e
  refine ⟨?_, ?_, ?_⟩
  · intro v hv
    rcases step_fileEffect isAddress s e with
      ⟨version, hnewer, hfile, hwritten⟩ | ⟨hfile, _⟩ | ⟨hfile, hwritten⟩
    · obtain rfl := Option.some.inj (hfile.symm.trans hv)
      rw [hwritten]
      refine ⟨List.mem_cons_self, fun w hw => ?_⟩
      rcases List.mem_cons.mp hw with rfl | hmem
      · exact le_rfl
      · exact (of_decide_eq_true (List.all_eq_true.mp hnewer w hmem)).le
    · rw [hfile] at hv
      cases hv
    · rw [hwritten]
      exact hs.file_newest v (hfile ▸ hv)
  · -- content is served of the file, which was written
    intro id v hv
    apply hsubset
    rcases read_of_step isAddress hv with hbefore | hfile
    · exact hs.read_written id v hbefore
    · exact (hs.file_newest v hfile).1
  · rcases step_fieldEffect isAddress s e with
      ⟨_, _, hcached, hlast⟩ | ⟨version, _, hloads, hcached, hlast⟩ | ⟨_, _, hcached, hlast⟩
    · exact .inl ⟨hcached, hlast⟩
    · -- both fields are set of the same version
      obtain ⟨id, _, hread⟩ := read_of_loads hloads
      exact .inr ⟨version, hsubset (hs.read_written id version hread), hlast, hcached⟩
    · rw [hcached, hlast]
      exact hs.cached_loaded.imp id fun ⟨v, hv, h⟩ => ⟨v, hsubset hv, h⟩

theorem invariant_run (es : List Event) :
    Invariant isAddress (run (SlippageModelRefresh.step isAddress) initial es) :=
  run_invariant (I := Invariant isAddress) (fun _ e hs => hs.step e) (invariant_initial isAddress)
    es

/-! ## Overtaking -/

section Overtaking

variable (isAddress)

/-- After a past, the content on its way to a run has been overtaken: when it already was on its
way, a newer version was loaded for another run, and the cache has not been reset since. -/
def Overtaken (past : List Event) (id : ℕ) (version : FileVersion) : Prop :=
  ∃ before e after newer,
    past = before ++ e :: after ∧
      (run (step isAddress) initial before).runs[id]? = some (Phase.read version) ∧
      loads isAddress (run (step isAddress) initial before) e = some newer ∧
      version.lastModified < newer.lastModified ∧
      AlongRun (step isAddress) (fun s e => resets s e = false)
        (run (step isAddress) initial (before ++ [e])) after

/-- No run loads content that has been overtaken. -/
def NoOvertaking (es : List Event) : Prop :=
  ∀ past e future id version, es = past ++ e :: future → e = .answerContent id →
    loads isAddress (run (step isAddress) initial past) e = some version →
      ¬ Overtaken isAddress past id version

variable {isAddress}

/-- Overtaken content stays so until the cache is reset. -/
theorem Overtaken.snoc {past : List Event} {id : ℕ} {version : FileVersion}
    (h : Overtaken isAddress past id version) {e : Event}
    (he : resets (run (step isAddress) initial past) e = false) :
    Overtaken isAddress (past ++ [e]) id version := by
  obtain ⟨before, d, after, newer, rfl, hread, hloads, hlt, hresets⟩ := h
  refine ⟨before, d, after ++ [e], newer, by simp, hread, hloads, hlt, ?_⟩
  rw [alongRun_append, ← run_append]
  refine ⟨hresets, ?_, trivial⟩
  rw [List.append_assoc, List.singleton_append]
  exact he

/-- Content on its way to a run that is older than what is recorded has been overtaken: when it was
served the file was the newest version, so what is recorded was loaded later. -/
theorem overtaken_of_lt (past : List Event) {id : ℕ} {version : FileVersion}
    (hread : (run (step isAddress) initial past).runs[id]? = some (Phase.read version))
    (hlt : version.lastModified < (run (step isAddress) initial past).lastRefreshed) :
    Overtaken isAddress past id version := by
  induction past using List.reverseRecOn with
  | nil => exact absurd hlt (Nat.not_lt_zero _)
  | append_singleton past e ih =>
    rw [run_append, run_cons, run_nil] at hread hlt
    have hinv := @invariant_run isAddress past
    rcases step_fieldEffect isAddress (run (step isAddress) initial past) e with
      ⟨_, _, _, hlast⟩ | ⟨newer, _, hloads, _, hlast⟩ | ⟨hresets, _, _, hlast⟩
    · rw [hlast] at hlt
      exact absurd hlt (Nat.not_lt_zero _)
    · -- the step is the one that overtakes
      rw [hlast] at hlt
      rcases read_of_step isAddress hread with hbefore | hserved
      · exact ⟨past, e, [], newer, rfl, hbefore, hloads, hlt, trivial⟩
      · obtain ⟨id', _, hnewer⟩ := read_of_loads hloads
        have hle := (hinv.file_newest version hserved).2 newer (hinv.read_written id' newer hnewer)
        exact absurd hlt (not_lt.mpr hle)
    · rw [hlast] at hlt
      rcases read_of_step isAddress hread with hbefore | hserved
      · exact (ih hbefore hlt).snoc hresets
      · -- content that has just been served is of the newest version
        exfalso
        rcases hinv.cached_loaded with ⟨_, hzero⟩ | ⟨v, hv, hlastRefreshed, _⟩
        · rw [hzero] at hlt
          exact Nat.not_lt_zero _ hlt
        · rw [hlastRefreshed] at hlt
          exact absurd ((hinv.file_newest version hserved).2 v hv) (not_le.mpr hlt)

end Overtaking

/-! ## Runs that fail -/

/-- The run that a step is taken by. -/
def Event.run : Event → Option ℕ
  | .serveCheck id | .answerCheck id | .serveContent id | .answerContent id | .fail id => some id
  | _ => none

theorem getElem?_setPhase_self {s : ManagerState} {id : ℕ} {before : Phase}
    (h : s.runs[id]? = some before) (phase : Phase) :
    (s.setPhase id phase).runs[id]? = some phase :=
  List.getElem?_set_self (List.getElem?_eq_some_iff.mp h).1

/-- A run that resets the cache or loads a version has finished. -/
theorem finished_of_resets {s : ManagerState} {e : Event} (h : resets s e = true) {id : ℕ}
    (hrun : e.run = some id) : (step isAddress s e).runs[id]? = some Phase.finished := by
  unfold resets at h
  split at h
  · obtain rfl := Option.some.inj hrun
    split at h
    · -- the file is missing
      rename_i hphase
      simp only [step, hphase, afterCheck]
      exact getElem?_setPhase_self hphase _
    · -- the file is stale
      rename_i hphase
      simp only [step, hphase, afterCheck, of_decide_eq_true h, if_true]
      exact getElem?_setPhase_self hphase _
    · cases h
  · cases h

theorem finished_of_loads {s : ManagerState} {e : Event} {version : FileVersion}
    (h : loads isAddress s e = some version) {id : ℕ} (hrun : e.run = some id) :
    (step isAddress s e).runs[id]? = some Phase.finished := by
  obtain ⟨_, rfl, hphase⟩ := read_of_loads h
  obtain rfl := Option.some.inj hrun
  rcases hcache : createSlippageModelCache isAddress version.content with error | cache
  · simp [loads, hphase, hcache] at h
  · simp only [step, hphase, afterContent, hcache]
    exact getElem?_setPhase_self hphase _

/-- What has ended stays so to the end of a run. -/
theorem ended_stays_run {s : ManagerState} {id : ℕ} {phase : Phase}
    (hphase : s.runs[id]? = some phase) (hended : phase.isActive = false) (es : List Event) :
    (run (step isAddress) s es).runs[id]? = some phase :=
  run_invariant (I := fun s : ManagerState => s.runs[id]? = some phase)
    (fun _ _ hphase => ended_stays isAddress hphase hended) hphase es

/-- No step of a run that fails changes what is cached. -/
theorem failed_run_unchanged {s : ManagerState} {e : Event} {id : ℕ} (hrun : e.run = some id)
    {future : List Event}
    (hfailed : (run (step isAddress) (step isAddress s e) future).runs[id]? = some Phase.failed) :
    (step isAddress s e).cachedSlippageModel = s.cachedSlippageModel ∧
      (step isAddress s e).lastRefreshed = s.lastRefreshed := by
  have hnot : (step isAddress s e).runs[id]? ≠ some Phase.finished := by
    intro hfinished
    rw [ended_stays_run hfinished rfl future] at hfailed
    cases hfailed
  rcases step_fieldEffect isAddress s e with
    ⟨hresets, _, _, _⟩ | ⟨_, _, hloads, _, _⟩ | ⟨_, _, hcached, hlast⟩
  · exact absurd (finished_of_resets hresets hrun) hnot
  · exact absurd (finished_of_loads hloads hrun) hnot
  · exact ⟨hcached, hlast⟩

/-! ## Refreshing -/

/-- What is claimed of a step: what is cached after it is nothing or was made of the version that is
recorded, and unless the step resets the cache, that version is no older than before. -/
structure StepSpec (isAddress : String → Bool) (s : ManagerState) (e : Event) : Prop where
  cached_loaded :
    ((step isAddress s e).cachedSlippageModel = .empty ∧ (step isAddress s e).lastRefreshed = 0) ∨
      ∃ v ∈ (step isAddress s e).written, (step isAddress s e).lastRefreshed = v.lastModified ∧
        createSlippageModelCache isAddress v.content =
          .ok (step isAddress s e).cachedSlippageModel
  forward : resets s e = true ∨ s.lastRefreshed ≤ (step isAddress s e).lastRefreshed

/-- What is claimed of an interleaving: every step is as claimed, and no step of a run that fails
changes what is cached or recorded. -/
structure RefreshSpec (isAddress : String → Bool) (es : List Event) : Prop where
  steps : AlongRun (step isAddress) (StepSpec isAddress) initial es
  failed_run : ∀ past e future id, es = past ++ e :: future → e.run = some id →
    (run (step isAddress) initial es).runs[id]? = some Phase.failed →
      (run (step isAddress) initial (past ++ [e])).cachedSlippageModel =
          (run (step isAddress) initial past).cachedSlippageModel ∧
        (run (step isAddress) initial (past ++ [e])).lastRefreshed =
          (run (step isAddress) initial past).lastRefreshed

/-- A step is as claimed unless it loads a version older than the one that is recorded. -/
theorem stepSpec_iff {s : ManagerState} (hs : Invariant isAddress s) (e : Event) :
    StepSpec isAddress s e ↔
      ∀ version, loads isAddress s e = some version → s.lastRefreshed ≤ version.lastModified := by
  constructor
  · intro h version hloads
    obtain ⟨id, rfl, _⟩ := read_of_loads hloads
    rw [← lastRefreshed_of_loads hloads]
    exact h.forward.resolve_left Bool.false_ne_true
  · intro h
    refine ⟨(hs.step e).cached_loaded, ?_⟩
    rcases step_fieldEffect isAddress s e with
      ⟨hresets, _, _, _⟩ | ⟨v, _, hsome, _, hlast⟩ | ⟨_, _, _, hlast⟩
    · exact .inl hresets
    · right
      rw [hlast]
      exact h v hsome
    · exact .inr hlast.ge

/-- As long as every step is as claimed and none resets, the version that is recorded grows. -/
theorem lastRefreshed_le_run {s : ManagerState} {es : List Event}
    (hspec : AlongRun (step isAddress) (StepSpec isAddress) s es)
    (hresets : AlongRun (step isAddress) (fun s e => resets s e = false) s es) :
    s.lastRefreshed ≤ (run (step isAddress) s es).lastRefreshed := by
  induction es generalizing s with
  | nil => exact le_rfl
  | cons e es ih =>
    obtain ⟨hstep, hspec⟩ := hspec
    obtain ⟨hreset, hresets⟩ := hresets
    exact (hstep.forward.resolve_left (by simp [hreset])).trans (ih hspec hresets)

theorem steps_iff_noOvertaking (es : List Event) :
    AlongRun (step isAddress) (StepSpec isAddress) initial es ↔ NoOvertaking isAddress es := by
  rw [alongRun_iff_split]
  constructor
  · rintro h past e future id version rfl he hloads ⟨before, d, after, newer, rfl, hread, hnewer,
      hlt, hresets⟩
    have hspec : AlongRun (step isAddress) (StepSpec isAddress)
        (run (step isAddress) initial (before ++ [d])) after := by
      rw [alongRun_iff_split]
      rintro past e' rest rfl
      rw [← run_append]
      refine h (before ++ [d] ++ past) e' (rest ++ e :: future) ?_
      simp
    -- the newer version is recorded, and what is recorded only grows from there
    have hgrows := lastRefreshed_le_run hspec hresets
    have hstart : (run (step isAddress) initial (before ++ [d])).lastRefreshed =
        newer.lastModified := by
      rw [run_append]
      exact lastRefreshed_of_loads hnewer
    have hend := (stepSpec_iff (invariant_run (before ++ d :: after)) e).mp
      (h (before ++ d :: after) e future rfl) version hloads
    rw [hstart, ← run_append, List.append_assoc, List.singleton_append] at hgrows
    exact absurd hlt (not_lt.mpr (hgrows.trans hend))
  · intro h past e future hes
    rw [stepSpec_iff (invariant_run past)]
    intro version hloads
    by_contra hlt
    obtain ⟨id, he, hread⟩ := read_of_loads hloads
    exact h past e future id version hes he hloads (overtaken_of_lt past hread (not_le.mp hlt))

/-- For every interleaving of any number of refreshes: it is as claimed exactly when no run loads
content that has been overtaken. -/
theorem refreshSpec_iff_noOvertaking (es : List Event) :
    RefreshSpec isAddress es ↔ NoOvertaking isAddress es := by
  rw [← steps_iff_noOvertaking]
  refine ⟨RefreshSpec.steps, fun hsteps => ⟨hsteps, ?_⟩⟩
  rintro past e future id rfl hrun hfailed
  rw [run_append] at hfailed ⊢
  exact failed_run_unchanged hrun hfailed

/-! ### Two refreshes that overlap -/

open SlippageModelManager (matchesAddress fileAt)

/-- The first refresh asks for the content of a first version of the file, and its answer comes
after a second refresh has loaded a second version. -/
def overlapping : List Event :=
  [.write ⟨1, fileAt (.fin 1)⟩, .start 1, .serveCheck 0, .answerCheck 0, .serveContent 0,
    .write ⟨2, fileAt (.fin 2)⟩, .start 2, .serveCheck 1, .answerCheck 1, .serveContent 1,
    .answerContent 1, .answerContent 0]

/-- The older version replaces the newer one. -/
theorem overlapping_goes_back :
    (run (step matchesAddress) initial overlapping.dropLast).lastRefreshed = 2 ∧
      (run (step matchesAddress) initial overlapping).lastRefreshed = 1 ∧
      ¬ RefreshSpec matchesAddress overlapping := by
  have hsplit : overlapping = overlapping.dropLast ++ [.answerContent 0] := rfl
  have hbefore : (run (step matchesAddress) initial overlapping.dropLast).lastRefreshed = 2 := by
    decide +kernel
  have hafter : (run (step matchesAddress) initial overlapping).lastRefreshed = 1 := by
    decide +kernel
  refine ⟨hbefore, hafter, fun h => ?_⟩
  have hlast := (alongRun_iff_split _ _ _ _).mp h.steps overlapping.dropLast _ [] hsplit
  have hforward := hlast.forward.resolve_left Bool.false_ne_true
  rw [hsplit, run_append, run_cons, run_nil] at hafter
  rw [hbefore, hafter] at hforward
  exact absurd hforward (by decide)

end ZeroExApi.SlippageModelRefresh
