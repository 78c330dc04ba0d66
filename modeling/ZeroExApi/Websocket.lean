/-
# ZeroExApi.Websocket — subscriptions of the order websocket, and who an update is sent to

`websocket_service.ts` keeps two maps keyed by the request id a client chose, one to the socket and
one to the filter, and a set of request ids on each socket.  The service here is a transition system
whose events are the connections, valid subscribe messages, closes and order updates of any number
of clients, in any order.  Beside it runs the register a reader would expect: which socket has
subscribed under which request id, and with which filter.

`DeliversAlong` says that every order of an update goes to exactly the matching subscriptions of
that register, once each, and that closing a socket disables nobody else.  The service does that on
every run whose subscribe messages use request ids that no other open socket holds and that are not
names a plain object inherits: `deliversAlong_of_distinct_requestIds`.

Sockets are numbered as they connect.  A message that fails its schema check closes its socket and
is not an event of its own.  Token addresses are hexadecimal, so lower case is ASCII lower case.
-/

import Mathlib.Logic.Function.Basic
import ZeroExApi.Lib.JsMap
import ZeroExApi.Lib.Transition
import ZeroExApi.OrderBook

namespace ZeroExApi.Websocket

open ZeroExApi.Lib ZeroExApi.Lib.Transition ZeroExApi.OrderBook

/-! ## The service -/

/-- The payload of a subscribe message, and the filter kept for it. -/
structure OrdersChannelSubscriptionOpts where
  makerToken : Option String
  takerToken : Option String
  deriving DecidableEq

/-- `OrdersChannelSubscriptionOpts | 'ALL_SUBSCRIPTION_OPTS'`. -/
inductive SubscriptionOpts where
  | all
  | opts (filter : OrdersChannelSubscriptionOpts)
  deriving DecidableEq

/-- `UpdateOrdersChannelMessageWithChannel`, less its constant type and channel. -/
structure UpdateOrdersChannelMessage where
  requestId : String
  payload : List SRAOrder
  deriving DecidableEq

/-- One `ws.send`. -/
structure Send where
  ws : ℕ
  message : UpdateOrdersChannelMessage
  deriving DecidableEq

/-- The state of `WebsocketService` and of the sockets the server knows. -/
structure State where
  clients : List ℕ
  nextSocket : ℕ
  requestIds : ℕ → List String
  requestIdToSocket : JsMap String ℕ
  requestIdToSubscriptionOpts : JsMap String SubscriptionOpts

/-- A service without connections. -/
def State.init : State where
  clients := []
  nextSocket := 0
  requestIds := fun _ => []
  requestIdToSocket := JsMap.empty
  requestIdToSubscriptionOpts := JsMap.empty

/-- A token filter that is absent or empty passes every token. -/
def tokenMatches (wanted : Option String) (token : String) : Bool :=
  match wanted with
  | none => true
  | some w => w == "" || token.toLower == w.toLower

/-- `_matchesOrdersChannelSubscription`. -/
def matchesOrdersChannelSubscription (order : SignedLimitOrder) : SubscriptionOpts → Bool
  | .all => true
  | .opts filter =>
    tokenMatches filter.takerToken order.takerToken &&
      tokenMatches filter.makerToken order.makerToken

/-- The filter a subscribe message is kept under: an absent or empty payload asks for everything. -/
def subscriptionOpts : Option OrdersChannelSubscriptionOpts → SubscriptionOpts
  | none => .all
  | some payload =>
    if payload.makerToken.isNone && payload.takerToken.isNone then .all else .opts payload

/-- `_processConnection`. -/
def processConnection (s : State) : State :=
  { s with
    clients := s.clients ++ [s.nextSocket]
    nextSocket := s.nextSocket + 1
    requestIds := Function.update s.requestIds s.nextSocket [] }

/-- `Set.prototype.add`. -/
def addToSet (requestIds : List String) (requestId : String) : List String :=
  if requestIds.contains requestId then requestIds else requestIds ++ [requestId]

theorem mem_addToSet {requestIds : List String} {requestId r : String} :
    r ∈ addToSet requestIds requestId ↔ r = requestId ∨ r ∈ requestIds := by
  unfold addToSet
  by_cases h : requestId ∈ requestIds
  · simp only [List.contains_iff_mem, h, if_true]
    constructor
    · exact Or.inr
    · rintro (rfl | hr)
      · exact h
      · exact hr
  · simp only [List.contains_iff_mem, h, if_false, List.mem_append, List.mem_singleton]
    exact or_comm

/-- `_processMessage` on a valid subscribe message of an open socket. -/
def processMessage (s : State) (ws : ℕ) (requestId : String)
    (payload : Option OrdersChannelSubscriptionOpts) : State :=
  { s with
    requestIds := Function.update s.requestIds ws (addToSet (s.requestIds ws) requestId)
    requestIdToSubscriptionOpts :=
      s.requestIdToSubscriptionOpts.set requestId (subscriptionOpts payload)
    requestIdToSocket := s.requestIdToSocket.set requestId ws }

/-- `_closeHandler`, with the server forgetting the socket. -/
def closeHandler (s : State) (ws : ℕ) : State :=
  { s with
    clients := s.clients.filter fun c => decide (c ≠ ws)
    requestIdToSocket := s.requestIdToSocket.deleteAll (s.requestIds ws)
    requestIdToSubscriptionOpts := s.requestIdToSubscriptionOpts.deleteAll (s.requestIds ws) }

/-- `TypeError: orderSet.add is not a function`. -/
inductive JsError where
  | typeError
  deriving DecidableEq

/-- The inner loop of `orderUpdate`: collect the order under every request id whose filter it
matches, in a plain object.  A key the object inherits looks like a set that is already there. -/
def collectOrder (order : SRAOrder) :
    JsMap String (List SRAOrder) → List (String × SubscriptionOpts) →
      Except JsError (JsMap String (List SRAOrder))
  | requestIdToOrders, [] => .ok requestIdToOrders
  | requestIdToOrders, (requestId, filter) :: rest =>
    if matchesOrdersChannelSubscription order.order filter then
      match readProperty requestIdToOrders requestId with
      | .own orderSet =>
        let orders := if orderSet.contains order then orderSet else orderSet ++ [order]
        collectOrder order (requestIdToOrders.set requestId orders) rest
      | .inherited => .error .typeError
      | .absent => collectOrder order (requestIdToOrders.set requestId [order]) rest
    else
      collectOrder order requestIdToOrders rest

/-- The second inner loop: send each set to the socket of its request id. -/
def sendCollected (s : State) (requestIdToOrders : JsMap String (List SRAOrder)) : List Send :=
  (objectEntries requestIdToOrders).filterMap fun e =>
    (s.requestIdToSocket.get e.1).map fun ws => ⟨ws, ⟨e.1, e.2⟩⟩

/-- The loop over the orders; an error ends it after what was already sent. -/
def updateLoop (s : State) : List SRAOrder → List Send × Option JsError
  | [] => ([], none)
  | order :: rest =>
    match collectOrder order JsMap.empty s.requestIdToSubscriptionOpts.entries with
    | .error e => ([], some e)
    | .ok requestIdToOrders =>
      let later := updateLoop s rest
      (sendCollected s requestIdToOrders ++ later.1, later.2)

/-- `orderUpdate`: what is sent, and the error it ends with, if any. -/
def orderUpdate (s : State) (apiOrders : List SRAOrder) : List Send × Option JsError :=
  if s.clients.length = 0 then ([], none) else updateLoop s apiOrders

/-- The events of a run. -/
inductive Event where
  | connection
  | subscribe (ws : ℕ) (requestId : String) (payload : Option OrdersChannelSubscriptionOpts)
  | close (ws : ℕ)
  | orderUpdate (apiOrders : List SRAOrder)

/-- One event; a socket that is not open has no events of its own. -/
def serviceStep (s : State) : Event → State
  | .connection => processConnection s
  | .subscribe ws requestId payload =>
    if s.clients.contains ws then processMessage s ws requestId payload else s
  | .close ws => if s.clients.contains ws then closeHandler s ws else s
  | .orderUpdate _ => s

/-! ## The register of live subscriptions -/

/-- The service together with its live subscriptions: a socket's filter under a request id, from the
subscribe message until the socket closes. -/
structure Observed where
  service : State
  live : ℕ → String → Option SubscriptionOpts

def Observed.init : Observed := ⟨State.init, fun _ _ => none⟩

/-- What an event does to the register. -/
def liveStep (o : Observed) : Event → ℕ → String → Option SubscriptionOpts
  | .subscribe ws requestId payload => fun ws' requestId' =>
    if ws ∈ o.service.clients ∧ ws' = ws ∧ requestId' = requestId then
      some (subscriptionOpts payload)
    else o.live ws' requestId'
  | .close ws => fun ws' requestId' => if ws' = ws then none else o.live ws' requestId'
  | _ => o.live

def step (o : Observed) (e : Event) : Observed := ⟨serviceStep o.service e, liveStep o e⟩

/-- The order matches the filter of a live subscription of the socket under the request id. -/
def Wanted (o : Observed) (ws : ℕ) (requestId : String) (order : SRAOrder) : Prop :=
  ∃ filter, o.live ws requestId = some filter ∧
    matchesOrdersChannelSubscription order.order filter = true

/-- The service holds a subscription of the socket under the request id with the filter. -/
def Registered (s : State) (ws : ℕ) (requestId : String) (filter : SubscriptionOpts) : Prop :=
  s.requestIdToSocket.get requestId = some ws ∧
    s.requestIdToSubscriptionOpts.get requestId = some filter

/-- An update delivers when each of its orders goes once to each subscription that wants it and to
no other, one order to a message, and nothing goes to a closed socket. -/
structure Delivers (o : Observed) (apiOrders : List SRAOrder) : Prop where
  wanted : ∀ ws requestId order, Wanted o ws requestId order →
    (orderUpdate o.service apiOrders).1.count ⟨ws, ⟨requestId, [order]⟩⟩ = apiOrders.count order
  only : ∀ send ∈ (orderUpdate o.service apiOrders).1,
    send.ws ∈ o.service.clients ∧
      ∃ order ∈ apiOrders, send.message.payload = [order] ∧
        Wanted o send.ws send.message.requestId order

/-- What isolation asks of one event. -/
def EventDelivers (o : Observed) : Event → Prop
  | .orderUpdate apiOrders => Delivers o apiOrders
  | .close ws => ∀ ws' requestId filter, ws' ≠ ws → Registered o.service ws' requestId filter →
      Registered (serviceStep o.service (.close ws)) ws' requestId filter
  | _ => True

/-- **Delivery is isolated per subscription** along a run. -/
def DeliversAlong (o : Observed) (es : List Event) : Prop := AlongRun step EventDelivers o es

/-- A subscribe message's request id is no inherited name and no other open socket holds it. -/
def DistinctRequestId (o : Observed) : Event → Prop
  | .subscribe ws requestId _ => ws ∈ o.service.clients →
      requestId ∉ objectPrototypeNames ∧
        ∀ ws' ∈ o.service.clients, ws' ≠ ws → requestId ∉ o.service.requestIds ws'
  | _ => True

/-! ## The invariant -/

/-- The two maps are the register: they have the same keys, together they hold exactly the live
subscriptions, the sockets' sets agree, only open sockets subscribe, and no key is a name that a
plain object inherits. -/
structure Consistent (o : Observed) : Prop where
  registered : ∀ ws requestId filter,
    o.live ws requestId = some filter ↔ Registered o.service ws requestId filter
  sameKeys : ∀ requestId, (o.service.requestIdToSocket.get requestId).isSome =
    (o.service.requestIdToSubscriptionOpts.get requestId).isSome
  held : ∀ ws ∈ o.service.clients, ∀ requestId,
    requestId ∈ o.service.requestIds ws ↔ (o.live ws requestId).isSome
  isOpen : ∀ ws requestId, (o.live ws requestId).isSome → ws ∈ o.service.clients
  plainKeys : ∀ requestId, (o.service.requestIdToSubscriptionOpts.get requestId).isSome →
    requestId ∉ objectPrototypeNames
  numbered : ∀ ws ∈ o.service.clients, ws < o.service.nextSocket

theorem consistent_init : Consistent Observed.init where
  registered := by
    intro ws requestId filter
    simp [Observed.init, Registered, State.init]
  sameKeys := fun _ => rfl
  held := by
    intro ws hws
    simp [Observed.init, State.init] at hws
  isOpen := by
    intro ws requestId h
    simp [Observed.init] at h
  plainKeys := by
    intro requestId h
    simp [Observed.init, State.init] at h
  numbered := by
    intro ws hws
    simp [Observed.init, State.init] at hws

theorem consistent_connection {o : Observed} (h : Consistent o) :
    Consistent (step o .connection) where
  registered := h.registered
  sameKeys := h.sameKeys
  held := by
    intro ws hws requestId
    simp only [step, serviceStep, processConnection, liveStep, List.mem_append,
      List.mem_singleton] at hws ⊢
    rcases hws with hold | rfl
    · rw [Function.update_of_ne (h.numbered ws hold).ne]
      exact h.held ws hold requestId
    · -- a new socket holds nothing and has no live subscription
      rw [Function.update_self]
      have hnone : ¬ (o.live o.service.nextSocket requestId).isSome := by
        intro hlive
        exact absurd (h.numbered _ (h.isOpen _ _ hlive)) (lt_irrefl _)
      simpa using hnone
  isOpen := by
    intro ws requestId hlive
    exact List.mem_append_left _ (h.isOpen ws requestId hlive)
  plainKeys := h.plainKeys
  numbered := by
    intro ws hws
    simp only [step, serviceStep, processConnection, List.mem_append, List.mem_singleton] at hws ⊢
    rcases hws with hold | rfl
    · exact Nat.lt_succ_of_lt (h.numbered ws hold)
    · exact Nat.lt_succ_self _

/-- A request id that is live for some socket is in the maps for that socket alone. -/
theorem Consistent.unique {o : Observed} (h : Consistent o) {ws ws' : ℕ} {requestId : String}
    (hws : (o.live ws requestId).isSome) (hws' : (o.live ws' requestId).isSome) : ws = ws' := by
  obtain ⟨f, hf⟩ := Option.isSome_iff_exists.mp hws
  obtain ⟨f', hf'⟩ := Option.isSome_iff_exists.mp hws'
  have hsocket := ((h.registered _ _ _).mp hf).1
  rw [((h.registered _ _ _).mp hf').1] at hsocket
  exact (Option.some.inj hsocket).symm

theorem step_subscribe_of_closed {o : Observed} {ws : ℕ} (hws : ws ∉ o.service.clients)
    (requestId : String) (payload : Option OrdersChannelSubscriptionOpts) :
    step o (.subscribe ws requestId payload) = o := by
  simp [step, serviceStep, liveStep, hws]

theorem liveStep_subscribe {o : Observed} {ws : ℕ} (hws : ws ∈ o.service.clients)
    (requestId : String) (payload : Option OrdersChannelSubscriptionOpts) (ws' : ℕ)
    (requestId' : String) :
    liveStep o (.subscribe ws requestId payload) ws' requestId' =
      if ws' = ws ∧ requestId' = requestId then some (subscriptionOpts payload)
      else o.live ws' requestId' := by
  simp [liveStep, hws]

/-- A subscribe message with a request id that no other socket holds keeps the maps consistent. -/
theorem consistent_subscribe {o : Observed} (h : Consistent o) {ws : ℕ} {requestId : String}
    {payload : Option OrdersChannelSubscriptionOpts}
    (hd : DistinctRequestId o (.subscribe ws requestId payload)) :
    Consistent (step o (.subscribe ws requestId payload)) := by
  by_cases hws : ws ∈ o.service.clients
  · obtain ⟨hplain, hothers⟩ := hd hws
    -- nobody but `ws` can have the request id live
    have hmine : ∀ ws', (o.live ws' requestId).isSome → ws' = ws := by
      intro ws' hlive
      by_contra hne
      have hopen := h.isOpen ws' requestId hlive
      exact hothers ws' hopen hne ((h.held ws' hopen requestId).mpr hlive)
    have hstep : (step o (.subscribe ws requestId payload)).service =
        processMessage o.service ws requestId payload := by
      simp [step, serviceStep, hws]
    have hlive : ∀ ws' requestId', (step o (.subscribe ws requestId payload)).live ws' requestId' =
        if ws' = ws ∧ requestId' = requestId then some (subscriptionOpts payload)
        else o.live ws' requestId' := liveStep_subscribe hws requestId payload
    refine ⟨?_, ?_, ?_, ?_, ?_, ?_⟩
    · intro ws' requestId' filter
      rw [hlive, hstep]
      simp only [Registered, processMessage, JsMap.get_set]
      by_cases hr : requestId' = requestId
      · subst hr
        by_cases hw : ws' = ws
        · simp [hw]
        · have hnone : o.live ws' requestId' = none := by
            rw [← Option.not_isSome_iff_eq_none]
            exact fun hsome => hw (hmine ws' hsome)
          simp [hw, hnone, Ne.symm hw]
      · simp only [hr, and_false, if_false]
        exact h.registered ws' requestId' filter
    · intro requestId'
      rw [hstep]
      simp only [processMessage, JsMap.get_set]
      by_cases hr : requestId' = requestId
      · simp [hr]
      · simpa [hr] using h.sameKeys requestId'
    · intro ws' hws' requestId'
      rw [hstep] at hws' ⊢
      rw [hlive]
      by_cases hw : ws' = ws
      · subst hw
        simp only [processMessage, Function.update_self, mem_addToSet, true_and]
        by_cases hr : requestId' = requestId
        · simp [hr]
        · simpa [hr] using h.held ws' hws requestId'
      · simp only [processMessage, Function.update_of_ne hw, hw, false_and, if_false]
        exact h.held ws' hws' requestId'
    · intro ws' requestId' hsome
      rw [hlive] at hsome
      rw [hstep]
      by_cases hw : ws' = ws ∧ requestId' = requestId
      · exact hw.1 ▸ hws
      · rw [if_neg hw] at hsome
        exact h.isOpen ws' requestId' hsome
    · intro requestId' hsome
      rw [hstep] at hsome
      simp only [processMessage, JsMap.get_set] at hsome
      by_cases hr : requestId' = requestId
      · exact hr ▸ hplain
      · rw [if_neg hr] at hsome
        exact h.plainKeys requestId' hsome
    · rw [hstep]
      exact h.numbered
  · rw [step_subscribe_of_closed hws]
    exact h

/-- In a consistent state no socket but the holder has a request id of the closing socket. -/
theorem Consistent.not_mem_requestIds {o : Observed} (h : Consistent o) {ws ws' : ℕ}
    (hws : ws ∈ o.service.clients) (hne : ws' ≠ ws) {requestId : String}
    (hlive : (o.live ws' requestId).isSome) : requestId ∉ o.service.requestIds ws := by
  intro hmem
  exact hne (h.unique hlive ((h.held ws hws requestId).mp hmem))

/-- Closing a socket of a consistent state leaves every other registration in place. -/
theorem registered_close {o : Observed} (h : Consistent o) {ws ws' : ℕ} {requestId : String}
    {filter : SubscriptionOpts} (hne : ws' ≠ ws)
    (hreg : Registered o.service ws' requestId filter) :
    Registered (serviceStep o.service (.close ws)) ws' requestId filter := by
  by_cases hws : ws ∈ o.service.clients
  · have hlive : (o.live ws' requestId).isSome := by
      rw [(h.registered ws' requestId filter).mpr hreg]
      rfl
    have hnot := h.not_mem_requestIds hws hne hlive
    simpa [serviceStep, hws, closeHandler, Registered, JsMap.get_deleteAll, hnot] using hreg
  · simpa [serviceStep, hws] using hreg

theorem consistent_close {o : Observed} (h : Consistent o) (ws : ℕ) :
    Consistent (step o (.close ws)) := by
  have hlive : ∀ ws' requestId, (step o (.close ws)).live ws' requestId =
      if ws' = ws then none else o.live ws' requestId := fun _ _ => rfl
  by_cases hws : ws ∈ o.service.clients
  · have hstep : (step o (.close ws)).service = closeHandler o.service ws := by
      simp [step, serviceStep, hws]
    refine ⟨?_, ?_, ?_, ?_, ?_, ?_⟩
    · intro ws' requestId filter
      rw [hlive, hstep]
      by_cases hw : ws' = ws
      · -- the closed socket has no registration left: its request ids are all deleted
        subst hw
        simp only [if_true, reduceCtorEq, false_iff]
        rintro ⟨hsocket, hopts⟩
        simp only [closeHandler, JsMap.get_deleteAll] at hsocket hopts
        by_cases hmem : requestId ∈ o.service.requestIds ws'
        · simp [hmem] at hsocket
        · rw [if_neg hmem] at hsocket hopts
          refine hmem ((h.held ws' hws requestId).mpr ?_)
          rw [(h.registered ws' requestId filter).mpr ⟨hsocket, hopts⟩]
          rfl
      · rw [if_neg hw, h.registered]
        constructor
        · intro hreg
          simpa [serviceStep, hws] using registered_close h hw hreg
        · rintro ⟨hsocket, hopts⟩
          simp only [closeHandler, JsMap.get_deleteAll] at hsocket hopts
          by_cases hmem : requestId ∈ o.service.requestIds ws
          · simp [hmem] at hsocket
          · rw [if_neg hmem] at hsocket hopts
            exact ⟨hsocket, hopts⟩
    · intro requestId
      rw [hstep]
      simp only [closeHandler, JsMap.get_deleteAll]
      by_cases hmem : requestId ∈ o.service.requestIds ws
      · simp [hmem]
      · simpa [hmem] using h.sameKeys requestId
    · intro ws' hws' requestId
      rw [hstep] at hws' ⊢
      simp only [closeHandler, List.mem_filter, decide_eq_true_eq] at hws' ⊢
      rw [hlive, if_neg hws'.2]
      exact h.held ws' hws'.1 requestId
    · intro ws' requestId hsome
      rw [hlive] at hsome
      rw [hstep]
      by_cases hw : ws' = ws
      · simp [hw] at hsome
      · rw [if_neg hw] at hsome
        simpa [closeHandler, hw] using h.isOpen ws' requestId hsome
    · intro requestId hsome
      rw [hstep] at hsome
      simp only [closeHandler, JsMap.get_deleteAll] at hsome
      by_cases hmem : requestId ∈ o.service.requestIds ws
      · simp [hmem] at hsome
      · rw [if_neg hmem] at hsome
        exact h.plainKeys requestId hsome
    · rw [hstep]
      intro ws' hws'
      exact h.numbered ws' (List.mem_filter.mp hws').1
  · -- a socket that is not open had nothing live
    have hsame : step o (.close ws) = o := by
      have hregister : liveStep o (.close ws) = o.live := by
        funext ws' requestId
        simp only [liveStep]
        by_cases hw : ws' = ws
        · rw [if_pos hw, eq_comm, ← Option.not_isSome_iff_eq_none]
          exact fun hsome => hws (hw ▸ h.isOpen ws' requestId hsome)
        · rw [if_neg hw]
      simp [step, serviceStep, hws, hregister]
    rw [hsame]
    exact h

/-- Every event with a distinct request id keeps the maps consistent. -/
theorem consistent_step (o : Observed) (e : Event) (h : Consistent o) (hd : DistinctRequestId o e) :
    Consistent (step o e) := by
  cases e with
  | connection => exact consistent_connection h
  | subscribe ws requestId payload => exact consistent_subscribe h hd
  | close ws => exact consistent_close h ws
  | orderUpdate apiOrders =>
    exact ⟨h.registered, h.sameKeys, h.held, h.isOpen, h.plainKeys, h.numbered⟩

/-! ## Delivery of one update -/

/-- The entries an order's collection ends with: each matching request id once, with the order
alone. -/
def collected (order : SRAOrder) (entries : List (String × SubscriptionOpts)) :
    List (String × List SRAOrder) :=
  (entries.filter fun e => matchesOrdersChannelSubscription order.order e.2).map
    fun e => (e.1, [order])

theorem readProperty_absent {ν : Type} {object : JsMap String ν} {key : String}
    (hget : object.get key = none) (hplain : key ∉ objectPrototypeNames) :
    readProperty object key = .absent := by
  simp [readProperty, hget, hplain]

/-- Without inherited names the collection succeeds and adds exactly the matching request ids. -/
theorem collectOrder_ok (order : SRAOrder) (entries : List (String × SubscriptionOpts)) :
    ∀ (requestIdToOrders : JsMap String (List SRAOrder)),
      (requestIdToOrders.entries.map Prod.fst ++ entries.map Prod.fst).Nodup →
      (∀ e ∈ entries, e.1 ∉ objectPrototypeNames) →
      ∃ final, collectOrder order requestIdToOrders entries = .ok final ∧
        final.entries = requestIdToOrders.entries ++ collected order entries := by
  induction entries with
  | nil =>
    intro acc _ _
    exact ⟨acc, rfl, by simp [collected]⟩
  | cons e entries ih =>
    intro acc hnd hplain
    obtain ⟨requestId, filter⟩ := e
    have hrest : ∀ e ∈ entries, e.1 ∉ objectPrototypeNames :=
      fun e he => hplain e (List.mem_cons_of_mem _ he)
    by_cases hm : matchesOrdersChannelSubscription order.order filter = true
    · -- request ids differ, so this one has collected nothing yet
      have hfresh : requestId ∉ acc.entries.map Prod.fst := by
        intro hmem
        exact (List.nodup_append.mp hnd).2.2 _ hmem _ List.mem_cons_self rfl
      have hget : acc.get requestId = none := (acc.get_eq_none_iff requestId).mpr hfresh
      have hread := readProperty_absent hget (hplain _ List.mem_cons_self)
      have hentries := JsMap.entries_set_of_get_eq_none hget [order]
      have hnd' : ((acc.set requestId [order]).entries.map Prod.fst ++
          entries.map Prod.fst).Nodup := by
        rw [hentries]
        simpa [List.append_assoc] using hnd
      obtain ⟨final, hok, hfinal⟩ := ih (acc.set requestId [order]) hnd' hrest
      refine ⟨final, ?_, ?_⟩
      · simp [collectOrder, hm, hread, hok]
      · rw [hfinal, hentries]
        simp [collected, hm]
    · have hnd' : (acc.entries.map Prod.fst ++ entries.map Prod.fst).Nodup := by
        refine hnd.sublist ?_
        exact (List.Sublist.refl _).append (List.sublist_cons_self _ _)
      obtain ⟨final, hok, hfinal⟩ := ih acc hnd' hrest
      refine ⟨final, ?_, ?_⟩
      · simp [collectOrder, hm, hok]
      · rw [hfinal]
        simp [collected, hm]

/-- In a consistent state the order is collected for the matching filters of the map. -/
theorem Consistent.collectOrder {o : Observed} (h : Consistent o) (order : SRAOrder) :
    ∃ final, collectOrder order JsMap.empty o.service.requestIdToSubscriptionOpts.entries =
        .ok final ∧
      final.entries = collected order o.service.requestIdToSubscriptionOpts.entries := by
  have hplain : ∀ e ∈ o.service.requestIdToSubscriptionOpts.entries,
      e.1 ∉ objectPrototypeNames := by
    intro e he
    refine h.plainKeys e.1 ?_
    rw [(JsMap.get_eq_some_iff _ e.1 e.2).mpr he]
    rfl
  have hnd : ((JsMap.empty : JsMap String (List SRAOrder)).entries.map Prod.fst ++
      o.service.requestIdToSubscriptionOpts.entries.map Prod.fst).Nodup := by
    simpa [JsMap.empty] using o.service.requestIdToSubscriptionOpts.nodup
  obtain ⟨final, hok, hfinal⟩ := collectOrder_ok order _ JsMap.empty hnd hplain
  exact ⟨final, hok, by simpa [JsMap.empty] using hfinal⟩

/-- What one order of an update sends in a consistent state, up to order: one message for each
matching filter. -/
def orderSends (s : State) (order : SRAOrder) : List Send :=
  (collected order s.requestIdToSubscriptionOpts.entries).filterMap fun e =>
    (s.requestIdToSocket.get e.1).map fun ws => ⟨ws, ⟨e.1, e.2⟩⟩

theorem mem_orderSends {o : Observed} (h : Consistent o) {order : SRAOrder} {send : Send} :
    send ∈ orderSends o.service order ↔
      send.message.payload = [order] ∧ Wanted o send.ws send.message.requestId order := by
  obtain ⟨ws, requestId, payload⟩ := send
  simp only [orderSends, collected, List.mem_filterMap, List.mem_map, List.mem_filter,
    Option.map_eq_some_iff, Wanted]
  constructor
  · rintro ⟨_, ⟨⟨r, filter⟩, ⟨hentry, hmatch⟩, rfl⟩, w, hsocket, hsend⟩
    obtain ⟨rfl, rfl, rfl⟩ : w = ws ∧ r = requestId ∧ [order] = payload := by simpa using hsend
    refine ⟨rfl, filter, ?_, hmatch⟩
    exact (h.registered w r filter).mpr ⟨hsocket, (JsMap.get_eq_some_iff _ _ _).mpr hentry⟩
  · rintro ⟨rfl, filter, hlive, hmatch⟩
    obtain ⟨hsocket, hopts⟩ := (h.registered ws requestId filter).mp hlive
    exact ⟨_, ⟨(requestId, filter), ⟨(JsMap.get_eq_some_iff _ _ _).mp hopts, hmatch⟩, rfl⟩, ws,
      hsocket, rfl⟩

/-- One order is sent at most once under a request id. -/
theorem orderSends_nodup (s : State) (order : SRAOrder) : (orderSends s order).Nodup := by
  have hkeys : ((collected order s.requestIdToSubscriptionOpts.entries).map Prod.fst).Nodup := by
    have hsub : ((collected order s.requestIdToSubscriptionOpts.entries).map Prod.fst).Sublist
        (s.requestIdToSubscriptionOpts.entries.map Prod.fst) := by
      rw [collected, List.map_map]
      exact List.filter_sublist.map _
    exact s.requestIdToSubscriptionOpts.nodup.sublist hsub
  refine hkeys.of_map.filterMap ?_
  intro a b send ha hb
  simp only [Option.mem_def, Option.map_eq_some_iff] at ha hb
  obtain ⟨_, -, rfl⟩ := ha
  obtain ⟨_, -, hsend⟩ := hb
  simp only [Send.mk.injEq, UpdateOrdersChannelMessage.mk.injEq] at hsend
  exact Prod.ext hsend.2.1.symm hsend.2.2.symm

/-- In a consistent state the update loop ends without an error and sends each order's messages. -/
theorem updateLoop_perm {o : Observed} (h : Consistent o) (apiOrders : List SRAOrder) :
    (updateLoop o.service apiOrders).1.Perm (apiOrders.flatMap (orderSends o.service)) ∧
      (updateLoop o.service apiOrders).2 = none := by
  induction apiOrders with
  | nil => exact ⟨List.Perm.refl _, rfl⟩
  | cons order rest ih =>
    obtain ⟨final, hok, hentries⟩ := h.collectOrder order
    have hsends : (sendCollected o.service final).Perm (orderSends o.service order) := by
      unfold sendCollected orderSends
      rw [← hentries]
      exact (objectEntries_perm final).filterMap _
    simp only [updateLoop, hok, List.flatMap_cons]
    exact ⟨hsends.append ih.1, ih.2⟩

/-- An update in a consistent state ends without an error and sends each order's messages, also
when nobody is connected. -/
theorem orderUpdate_perm {o : Observed} (h : Consistent o) (apiOrders : List SRAOrder) :
    (orderUpdate o.service apiOrders).1.Perm (apiOrders.flatMap (orderSends o.service)) ∧
      (orderUpdate o.service apiOrders).2 = none := by
  by_cases hnone : o.service.clients.length = 0
  · have hempty : apiOrders.flatMap (orderSends o.service) = [] := by
      rw [List.flatMap_eq_nil_iff]
      intro order _
      rw [List.eq_nil_iff_forall_not_mem]
      intro send hsend
      obtain ⟨-, filter, hlive, -⟩ := (mem_orderSends h).mp hsend
      have hopen := h.isOpen send.ws send.message.requestId (by rw [hlive]; rfl)
      rw [List.length_eq_zero_iff.mp hnone] at hopen
      exact absurd hopen List.not_mem_nil
    simp [orderUpdate, hnone, hempty]
  · simpa [orderUpdate, hnone] using updateLoop_perm h apiOrders

/-- A message that is wanted occurs once for each occurrence of its order. -/
theorem count_flatMap_orderSends {o : Observed} (h : Consistent o) {ws : ℕ} {requestId : String}
    {order : SRAOrder} (hw : Wanted o ws requestId order) (apiOrders : List SRAOrder) :
    (apiOrders.flatMap (orderSends o.service)).count ⟨ws, ⟨requestId, [order]⟩⟩ =
      apiOrders.count order := by
  induction apiOrders with
  | nil => rfl
  | cons first rest ih =>
    have hhead : (orderSends o.service first).count ⟨ws, ⟨requestId, [order]⟩⟩ =
        if first = order then 1 else 0 := by
      rw [List.Nodup.count (orderSends_nodup o.service first)]
      refine if_congr ?_ rfl rfl
      rw [mem_orderSends h]
      constructor
      · rintro ⟨hpayload, -⟩
        simpa [eq_comm] using hpayload
      · rintro rfl
        exact ⟨rfl, hw⟩
    rw [List.flatMap_cons, List.count_append, hhead, ih, List.count_cons]
    by_cases hfirst : first = order
    · simp [hfirst, Nat.add_comm]
    · simp [hfirst]

/-- In a consistent state an update delivers. -/
theorem Consistent.delivers {o : Observed} (h : Consistent o) (apiOrders : List SRAOrder) :
    Delivers o apiOrders := by
  obtain ⟨hperm, -⟩ := orderUpdate_perm h apiOrders
  refine ⟨?_, ?_⟩
  · intro ws requestId order hw
    rw [hperm.count_eq]
    exact count_flatMap_orderSends h hw apiOrders
  · intro send hsend
    obtain ⟨order, horder, hmem⟩ := List.mem_flatMap.mp (hperm.mem_iff.mp hsend)
    obtain ⟨hpayload, hw⟩ := (mem_orderSends h).mp hmem
    refine ⟨?_, order, horder, hpayload, hw⟩
    obtain ⟨filter, hlive, -⟩ := hw
    exact h.isOpen send.ws send.message.requestId (by rw [hlive]; rfl)

/-! ## Delivery along runs -/

theorem Consistent.eventDelivers (o : Observed) (e : Event) (h : Consistent o) :
    EventDelivers o e := by
  cases e with
  | connection => trivial
  | subscribe ws requestId payload => trivial
  | close ws =>
    intro ws' requestId filter hne hreg
    exact registered_close h hne hreg
  | orderUpdate apiOrders => exact h.delivers apiOrders

/-- Along every run from a new service in which each subscribe message uses a request id that is no
inherited name and that no other open socket holds, delivery is isolated per subscription. -/
theorem deliversAlong_of_distinct_requestIds {es : List Event}
    (hes : AlongRun step DistinctRequestId Observed.init es) : DeliversAlong Observed.init es :=
  (alongRun_of_guard consistent_step (fun o e h _ => h.eventDelivers o e) consistent_init hes).1

/-- An order of the pair WETH/DAI. -/
def sampleOrder : SRAOrder := deserializeOrderToSRAOrder defaultEnv (bidRow "0xa" 2000)

/-- What a socket wants that is told of that order. -/
def wantsWeth : OrdersChannelSubscriptionOpts where
  makerToken := some "WETH"
  takerToken := none

theorem wantsWeth_matches :
    matchesOrdersChannelSubscription sampleOrder.order (subscriptionOpts (some wantsWeth)) =
      true := by
  have hmaker : tokenMatches (some "WETH") "WETH" = true := by simp [tokenMatches]
  exact Bool.and_eq_true_iff.mpr ⟨rfl, hmaker⟩

/-- Two sockets under request ids of their own, one of which closes; the other wants the order of an
update. -/
theorem deliversAlong_two_sockets :
    matchesOrdersChannelSubscription sampleOrder.order (subscriptionOpts (some wantsWeth)) = true ∧
      DeliversAlong Observed.init
        [.connection, .connection, .subscribe 0 "a" none, .subscribe 1 "b" (some wantsWeth),
          .close 0, .orderUpdate [sampleOrder]] := by
  refine ⟨wantsWeth_matches, deliversAlong_of_distinct_requestIds ?_⟩
  exact ⟨trivial, trivial, fun _ => ⟨by decide, by decide⟩, fun _ => ⟨by decide, by decide⟩,
    trivial, trivial, trivial⟩

/-- Two sockets subscribe under the request id "x": the close of the first deletes the registration
of the second.  And one socket subscribed as "toString" keeps every other subscription from an
update: the update ends with a `TypeError`. -/
theorem shared_or_inherited_requestId_breaks_delivery :
    ¬ DeliversAlong Observed.init
        [.connection, .connection, .subscribe 0 "x" none, .subscribe 1 "x" none, .close 0] ∧
      ¬ DeliversAlong Observed.init
        [.connection, .connection, .subscribe 0 "toString" none, .subscribe 1 "x" none,
          .orderUpdate [sampleOrder]] := by
  constructor
  · rintro ⟨-, -, -, -, hclose, -⟩
    have hkept := hclose 1 "x" .all (by decide) ⟨rfl, rfl⟩
    exact absurd hkept.1 (by decide)
  · rintro ⟨-, -, -, -, hupdate, -⟩
    have hsent := hupdate.wanted 1 "x" sampleOrder ⟨.all, rfl, rfl⟩
    exact absurd hsent (by decide)

end ZeroExApi.Websocket
