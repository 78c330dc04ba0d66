/-
# ZeroExApi.RfqBlockedAddressUtils — the set of blocked addresses, updated in the background

`utils/rfq_blocked_address_utils.ts`.  `isBlocked` answers from a set that is kept, and when the set
has expired it starts an update and answers from the old set.  While `_updating` is set no other
update is started.

An update in flight is a query on its way to the database, which answers at any later time or fails.
The flag is cleared only behind the answer, so a failure leaves it set: from then on no update is
started (`Stuck`).  Everything else that is asked of the list holds in every run, so a run is as it
should be exactly if no address is asked for after a failure (`blockedListSpec_iff`).
-/

import ZeroExApi.Lib.InFlight
import ZeroExApi.Lib.JsString
import ZeroExApi.Lib.Transition

namespace ZeroExApi.RfqBlockedAddressUtils

open ZeroExApi.Lib ZeroExApi.Lib.JsString ZeroExApi.Lib.Transition

/-! ## The list -/

/-- The address of a `BlockedAddressEntity`. -/
structure BlockedAddressEntity where
  address : String

/-- Addresses in lower case, as the configuration has them. -/
structure LowerCaseSet where
  addresses : List String
  lower : ∀ address ∈ addresses, address.toLower = address

/-- `RFQT_TX_ORIGIN_BLACKLIST`: the addresses of the configuration, in lower case. -/
def RFQT_TX_ORIGIN_BLACKLIST (addresses : List String) : LowerCaseSet where
  addresses := addresses.map String.toLower
  lower := by
    intro address hmem
    obtain ⟨a, _, rfl⟩ := List.mem_map.mp hmem
    exact toLower_toLower a

/-- The fields of the list, the clock, and the updates that wait for the database. -/
structure BlockedList where
  now : ℕ
  blocked : List String
  expiresAt : ℕ
  updating : Bool
  updates : InFlight Unit

def MAX_SET_SIZE : ℕ := 5000

/-- The constructor: the set expires at once. -/
def create (now : ℕ) (initialBlockedSet : LowerCaseSet) : BlockedList where
  now := now
  blocked := initialBlockedSet.addresses
  expiresAt := now
  updating := false
  updates := .empty

namespace BlockedList

/-- `_updateBlockedSetAsync` up to its query. -/
def startUpdate (s : BlockedList) : BlockedList :=
  { s with
    updating := true
    updates := s.updates.start () }

/-- A call finds the set expired. -/
def isExpired (s : BlockedList) : Bool := decide (s.now > s.expiresAt)

/-- `isBlocked`. -/
def isBlocked (s : BlockedList) (address : String) : BlockedList × Bool :=
  let s := if s.isExpired && !s.updating then s.startUpdate else s
  (s, s.blocked.contains address.toLower)

/-- `find`: no more rows than `MAX_SET_SIZE`. -/
def find (table : List BlockedAddressEntity) : List BlockedAddressEntity := table.take MAX_SET_SIZE

/-- `_updateBlockedSetAsync` from the answer to its query on. -/
def afterFind (ttlMs : ℕ) (s : BlockedList) (update : ℕ) (table : List BlockedAddressEntity) :
    BlockedList :=
  let blockedAddresses := find table
  { s with
    blocked := blockedAddresses.map fun entity => entity.address.toLower
    expiresAt := s.now + ttlMs
    updating := false
    updates := s.updates.settle update }

/-- The query of an update fails, and the rest of it is not run. -/
def afterFailure (s : BlockedList) (update : ℕ) : BlockedList :=
  { s with updates := s.updates.settle update }

end BlockedList

/-- What can happen next: time passes, an address is asked for, or the query of an update is
answered with a table or fails. -/
inductive Event where
  | clock (ms : ℕ)
  | isBlocked (address : String)
  | found (update : ℕ) (table : List BlockedAddressEntity)
  | failed (update : ℕ)

/-- An update waits for the database. -/
def BlockedList.Waits (s : BlockedList) (update : ℕ) : Prop := s.updates.call? update = some ()

instance (s : BlockedList) (update : ℕ) : Decidable (s.Waits update) :=
  inferInstanceAs (Decidable (_ = _))

/-- One step; an answer nobody waits for changes nothing. -/
def step (ttlMs : ℕ) (s : BlockedList) : Event → BlockedList
  | .clock ms => { s with now := s.now + ms }
  | .isBlocked address => (s.isBlocked address).1
  | .found update table => if s.Waits update then s.afterFind ttlMs update table else s
  | .failed update => if s.Waits update then s.afterFailure update else s

/-! ## What is claimed -/

/-- The addresses that an event loads. -/
def loads (s : BlockedList) : Event → Option (List String)
  | .found update table =>
    if s.Waits update then
      some ((BlockedList.find table).map BlockedAddressEntity.address)
    else
      none
  | _ => none

/-- The set that was loaded last in a run, as the table had it; the initial one if there is none. -/
def lastLoaded (ttlMs : ℕ) (s : BlockedList) (loaded : List String) : List Event → List String
  | [] => loaded
  | e :: es => lastLoaded ttlMs (step ttlMs s e) ((loads s e).getD loaded) es

/-- An address is in a set, whatever the case of its letters. -/
def Holds (addresses : List String) (address : String) : Prop :=
  ∃ a ∈ addresses, a.toLower = address.toLower

/-- A call that finds the set expired. -/
def findsExpired (s : BlockedList) : Event → Bool
  | .isBlocked _ => s.isExpired
  | _ => false

/-- The list after some events. -/
def after (ttlMs now : ℕ) (initialBlockedSet : LowerCaseSet) (past : List Event) : BlockedList :=
  run (step ttlMs) (create now initialBlockedSet) past

/-- What is claimed of a run: at most one update waits for the database; a failure leaves the set as
it is, and the first call after it that finds the set expired starts another update; and every
answer is that of the set that was loaded last. -/
structure BlockedListSpec (ttlMs now : ℕ) (initialBlockedSet : LowerCaseSet) (es : List Event) :
    Prop where
  single : ∀ past future m n, es = past ++ future →
    (after ttlMs now initialBlockedSet past).Waits m →
      (after ttlMs now initialBlockedSet past).Waits n → m = n
  failure_keeps : ∀ past update future, es = past ++ .failed update :: future →
    (after ttlMs now initialBlockedSet (past ++ [.failed update])).blocked =
      (after ttlMs now initialBlockedSet past).blocked
  retried : ∀ past update waiting address future,
    es = past ++ .failed update :: (waiting ++ .isBlocked address :: future) →
    (after ttlMs now initialBlockedSet past).Waits update →
    AlongRun (step ttlMs) (fun s e => findsExpired s e = false)
      (after ttlMs now initialBlockedSet (past ++ [.failed update])) waiting →
    (after ttlMs now initialBlockedSet (past ++ .failed update :: waiting)).isExpired = true →
    (after ttlMs now initialBlockedSet
        (past ++ .failed update :: (waiting ++ [.isBlocked address]))).updates.started =
      (after ttlMs now initialBlockedSet (past ++ .failed update :: waiting)).updates.started + 1
  answers : ∀ past address future, es = past ++ .isBlocked address :: future →
    (((after ttlMs now initialBlockedSet past).isBlocked address).2 = true ↔
      Holds (lastLoaded ttlMs (create now initialBlockedSet) initialBlockedSet.addresses past)
        address)

/-- No address is asked for after an update that waited for the database has failed. -/
def NoCallAfterFailure (ttlMs now : ℕ) (initialBlockedSet : LowerCaseSet) (es : List Event) :
    Prop :=
  ∀ past update waiting address future,
    es = past ++ .failed update :: (waiting ++ .isBlocked address :: future) →
      ¬ (after ttlMs now initialBlockedSet past).Waits update

/-! ## Updates in flight -/

/-- An update that waits is the last one that was started and has set the flag, and the flag is set
only while the set is expired. -/
structure Invariant (s : BlockedList) : Prop where
  waiting : ∀ n, s.Waits n → s.updating = true ∧ n + 1 = s.updates.started
  expired : s.updating = true → s.isExpired = true

theorem Invariant.single {s : BlockedList} (hs : Invariant s) {m n : ℕ} (hm : s.Waits m)
    (hn : s.Waits n) : m = n := by
  have hm' := (hs.waiting m hm).2
  have hn' := (hs.waiting n hn).2
  omega

theorem invariant_create (now : ℕ) (initialBlockedSet : LowerCaseSet) :
    Invariant (create now initialBlockedSet) := by
  refine ⟨fun n hn => ?_, nofun⟩
  simp [BlockedList.Waits, create] at hn

/-- When the only update that waits settles, none is left. -/
theorem not_waits_settle {s : BlockedList} (hs : Invariant s) {update : ℕ}
    (hwaits : s.Waits update) (n : ℕ) : (s.updates.settle update).call? n ≠ some () := by
  intro hn
  obtain ⟨hne, hn⟩ := InFlight.call?_of_settle hn
  exact hne (hs.single hn hwaits)

theorem Invariant.step {s : BlockedList} (hs : Invariant s) (ttlMs : ℕ) (e : Event) :
    Invariant (step ttlMs s e) := by
  cases e with
  | clock ms =>
    refine ⟨hs.waiting, fun h => ?_⟩
    have hexpired : s.now > s.expiresAt := of_decide_eq_true (hs.expired h)
    show decide (s.now + ms > s.expiresAt) = true
    simp
    omega
  | isBlocked address =>
    show Invariant (if s.isExpired && !s.updating then s.startUpdate else s)
    split
    · rename_i hstart
      simp at hstart
      refine ⟨fun n hn => ?_, fun _ => hstart.1⟩
      -- no other update waits, because the flag was not set
      rcases InFlight.call?_of_start hn with ⟨hnew, _⟩ | hbefore
      · simp [BlockedList.startUpdate, hnew]
      · have hset := (hs.waiting n hbefore).1
        simp [hstart.2] at hset
    · exact hs
  | found update table =>
    show Invariant (if s.Waits update then s.afterFind ttlMs update table else s)
    split
    · rename_i hwaits
      exact ⟨fun n hn => absurd hn (not_waits_settle hs hwaits n), nofun⟩
    · exact hs
  | failed update =>
    show Invariant (if s.Waits update then s.afterFailure update else s)
    split
    · rename_i hwaits
      exact ⟨fun n hn => absurd hn (not_waits_settle hs hwaits n), hs.expired⟩
    · exact hs

/-- The invariant holds after any events. -/
theorem invariant_run {s : BlockedList} (hs : Invariant s) (ttlMs : ℕ) (es : List Event) :
    Invariant (run (RfqBlockedAddressUtils.step ttlMs) s es) :=
  run_invariant (fun _ e h => h.step ttlMs e) hs es

/-! ## Answers -/

/-- The set that is kept answers for some addresses. -/
def Agrees (addresses : List String) (s : BlockedList) : Prop :=
  ∀ address : String, s.blocked.contains address.toLower = true ↔ Holds addresses address

theorem agrees_create (now : ℕ) (initialBlockedSet : LowerCaseSet) :
    Agrees initialBlockedSet.addresses (create now initialBlockedSet) := by
  intro address
  simp only [create, List.contains_iff_mem, Holds]
  constructor
  · intro hmem
    exact ⟨_, hmem, toLower_toLower address⟩
  · rintro ⟨a, ha, heq⟩
    rw [← heq, initialBlockedSet.lower a ha]
    exact ha

theorem isBlocked_blocked (s : BlockedList) (address : String) :
    (s.isBlocked address).1.blocked = s.blocked := by
  simp only [BlockedList.isBlocked]
  split <;> rfl

theorem isBlocked_answer (s : BlockedList) (address : String) :
    (s.isBlocked address).2 = s.blocked.contains address.toLower := by
  simp only [BlockedList.isBlocked]
  split <;> rfl

theorem Agrees.step {addresses : List String} {s : BlockedList} (h : Agrees addresses s)
    (ttlMs : ℕ) (e : Event) : Agrees ((loads s e).getD addresses) (step ttlMs s e) := by
  cases e with
  | clock ms => exact h
  | isBlocked address =>
    intro a
    show (s.isBlocked address).1.blocked.contains a.toLower = true ↔ Holds addresses a
    rw [isBlocked_blocked]
    exact h a
  | found update table =>
    by_cases hwaits : s.Waits update
    · intro a
      simp [RfqBlockedAddressUtils.step, loads, hwaits, BlockedList.afterFind, Holds]
    · simpa [RfqBlockedAddressUtils.step, loads, hwaits] using h
  | failed update =>
    show Agrees addresses (if s.Waits update then s.afterFailure update else s)
    split <;> exact h

theorem Agrees.run {addresses : List String} {s : BlockedList} (h : Agrees addresses s)
    (ttlMs : ℕ) (es : List Event) :
    Agrees (lastLoaded ttlMs s addresses es) (run (RfqBlockedAddressUtils.step ttlMs) s es) := by
  induction es generalizing s addresses with
  | nil => exact h
  | cons e es ih => exact ih (h.step ttlMs e)

/-! ## After a failure -/

/-- The flag is set and no update waits that could clear it. -/
def Stuck (s : BlockedList) : Prop := s.updating = true ∧ ∀ n, ¬ s.Waits n

theorem stuck_of_failure {s : BlockedList} (hs : Invariant s) {update : ℕ}
    (hwaits : s.Waits update) (ttlMs : ℕ) : Stuck (step ttlMs s (.failed update)) := by
  have hstep : step ttlMs s (.failed update) = s.afterFailure update := if_pos hwaits
  rw [hstep]
  exact ⟨(hs.waiting update hwaits).1, not_waits_settle hs hwaits⟩

/-- A list that is stuck stays so, and starts no update. -/
theorem Stuck.step {s : BlockedList} (h : Stuck s) (ttlMs : ℕ) (e : Event) :
    Stuck (step ttlMs s e) ∧ (step ttlMs s e).updates.started = s.updates.started := by
  obtain ⟨hupdating, hnone⟩ := h
  cases e with
  | clock ms => exact ⟨⟨hupdating, hnone⟩, rfl⟩
  | isBlocked address =>
    have hstep : RfqBlockedAddressUtils.step ttlMs s (.isBlocked address) = s := by
      simp [RfqBlockedAddressUtils.step, BlockedList.isBlocked, hupdating]
    rw [hstep]
    exact ⟨⟨hupdating, hnone⟩, rfl⟩
  | found update table =>
    have hstep : RfqBlockedAddressUtils.step ttlMs s (.found update table) = s :=
      if_neg (hnone update)
    rw [hstep]
    exact ⟨⟨hupdating, hnone⟩, rfl⟩
  | failed update =>
    have hstep : RfqBlockedAddressUtils.step ttlMs s (.failed update) = s := if_neg (hnone update)
    rw [hstep]
    exact ⟨⟨hupdating, hnone⟩, rfl⟩

theorem Stuck.run {s : BlockedList} (h : Stuck s) (ttlMs : ℕ) (es : List Event) :
    Stuck (run (RfqBlockedAddressUtils.step ttlMs) s es) :=
  run_invariant (fun _ e h => (h.step ttlMs e).1) h es

/-- A call for an address. -/
def Event.isCall : Event → Bool
  | .isBlocked _ => true
  | _ => false

theorem findsExpired_of_not_call {e : Event} (h : e.isCall = false) (s : BlockedList) :
    findsExpired s e = false := by
  cases e with
  | isBlocked address => cases h
  | _ => rfl

/-- Where there is a call there is a first one. -/
theorem exists_first_call {es : List Event} {address : String} (h : .isBlocked address ∈ es) :
    ∃ waiting first future, es = waiting ++ .isBlocked first :: future ∧
      ∀ e ∈ waiting, e.isCall = false := by
  have hsome : (es.find? Event.isCall).isSome = true :=
    List.find?_isSome.mpr ⟨_, h, rfl⟩
  obtain ⟨e, he⟩ := Option.isSome_iff_exists.mp hsome
  obtain ⟨hcall, waiting, future, hes, hwaiting⟩ := List.find?_eq_some_iff_append.mp he
  cases e with
  | isBlocked first => exact ⟨waiting, first, future, hes, by simpa using hwaiting⟩
  | _ => cases hcall

/-- For every run, whatever the database answers and when: it is as claimed exactly if no address is
asked for after a failure. -/
theorem blockedListSpec_iff (ttlMs now : ℕ) (initialBlockedSet : LowerCaseSet) (es : List Event) :
    BlockedListSpec ttlMs now initialBlockedSet es ↔
      NoCallAfterFailure ttlMs now initialBlockedSet es := by
  have hinv := fun past => invariant_run (invariant_create now initialBlockedSet) ttlMs past
  constructor
  · intro h past update waiting address future hes hwaits
    -- the first call after the failure finds the list expired and stuck
    have hmem : .isBlocked address ∈ waiting ++ .isBlocked address :: future := by simp
    obtain ⟨before, first, rest, hsplit, hbefore⟩ := exists_first_call hmem
    have hstuck : Stuck (after ttlMs now initialBlockedSet (past ++ .failed update :: before)) := by
      rw [after, run_append, run_cons]
      exact (stuck_of_failure (hinv past) hwaits ttlMs).run ttlMs before
    have hexpired := (hinv (past ++ .failed update :: before)).expired hstuck.1
    have hstart := h.retried past update before first rest (hsplit ▸ hes) hwaits
      ((alongRun_iff_split _ _ _ _).mpr fun p e f hp =>
        findsExpired_of_not_call (hbefore e (hp ▸ by simp)) _) hexpired
    have hstep := (hstuck.step ttlMs (.isBlocked first)).2
    have hrun : after ttlMs now initialBlockedSet
        (past ++ .failed update :: (before ++ [.isBlocked first])) =
          step ttlMs (after ttlMs now initialBlockedSet (past ++ .failed update :: before))
            (.isBlocked first) := by
      rw [← List.cons_append, ← List.append_assoc, after, run_append]
      rfl
    rw [hrun, hstep] at hstart
    omega
  · intro h
    refine ⟨?_, ?_, ?_, ?_⟩
    · intro past future m n _ hm hn
      exact (hinv past).single hm hn
    · -- a failure leaves everything but what is in flight
      intro past update future _
      rw [after, run_append]
      show (if _ then _ else _ : BlockedList).blocked = _
      split <;> rfl
    · intro past update waiting address future hes hwaits
      exact absurd hwaits (h past update waiting address future hes)
    · intro past address future _
      rw [isBlocked_answer]
      exact (agrees_create now initialBlockedSet).run ttlMs past address

/-! ### A query that fails once -/

/-- The query of the first update fails, and an address is asked for again. -/
def failedOnce : List Event :=
  [.clock 1, .isBlocked "0xa", .failed 0, .clock 1000, .isBlocked "0xa"]

/-- No other update is started. -/
theorem failedOnce_never_updates :
    (after 50 0 ⟨[], nofun⟩ failedOnce).isExpired = true ∧
      (after 50 0 ⟨[], nofun⟩ failedOnce).updates.started = 1 ∧
      ¬ BlockedListSpec 50 0 ⟨[], nofun⟩ failedOnce := by
  refine ⟨by decide, by decide, fun h => ?_⟩
  have hstart := h.retried [.clock 1, .isBlocked "0xa"] 0 [.clock 1000] "0xa" [] rfl (by decide)
    ⟨rfl, trivial⟩ (by decide)
  exact absurd hstart (by decide)

end ZeroExApi.RfqBlockedAddressUtils
