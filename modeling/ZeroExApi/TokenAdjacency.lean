/-
# ZeroExApi.TokenAdjacency — the tokens a two-hop route may go through

`utils/token_adjacency_graph.ts`.  A builder collects edges between tokens; the graph it builds
answers which tokens stand next to one, and which may stand between two.  Every token is lowered
where it enters.  The list of a token starts as a copy of the default tokens when its first edge is
added, and a token without edges has the default tokens themselves.

All calls of a builder come down to a list of `add`s (`Call.attempts`), so a builder is read through
what one `add` does to the tokens next to each token (`mem_adjacent_addEdge`).  Which edges a call
adds is said without regard to any order (`Call.Adds`), and so is the graph of a list of calls
(`IsGraphOf`).

`build` hands the map of the builder on: a graph is what its builder holds when it is asked.
-/

import ZeroExApi.Lib.JsMap
import ZeroExApi.Lib.JsString

namespace ZeroExApi.TokenAdjacency

open ZeroExApi.Lib ZeroExApi.Lib.JsString

/-- The address of a token, in any letter case. -/
abbrev Address := String

/-! ## The graph -/

/-- The fields of a `TokenAdjacencyGraph`. -/
structure TokenAdjacencyGraph where
  graph : JsMap Address (List Address)
  defaultTokens : List Address

/-- `_.union` of two arrays. -/
def union (xs ys : List Address) : List Address := (JsSet.ofList (xs ++ ys)).elements

namespace TokenAdjacencyGraph

/-- `getAdjacentTokens`; no array is falsy, not even an empty one. -/
def getAdjacentTokens (g : TokenAdjacencyGraph) (fromToken : Address) : List Address :=
  (g.graph.get fromToken.toLower).getD g.defaultTokens

/-- `getIntermediateTokens`. -/
def getIntermediateTokens (g : TokenAdjacencyGraph) (takerToken makerToken : Address) :
    List Address :=
  (union (g.getAdjacentTokens takerToken) (g.getAdjacentTokens makerToken)).filter fun token =>
    token ≠ takerToken.toLower && token ≠ makerToken.toLower

end TokenAdjacencyGraph

/-! ## The builder -/

/-- The fields of a `TokenAdjacencyGraphBuilder`. -/
structure TokenAdjacencyGraphBuilder where
  graph : JsMap Address (List Address)
  defaultTokens : List Address

/-- What a method of the builder does: it changes the builder and may throw. -/
abbrev BuilderM := EStateM String TokenAdjacencyGraphBuilder

namespace TokenAdjacencyGraphBuilder

/-- The constructor. -/
def create (defaultTokens : List Address) : TokenAdjacencyGraphBuilder where
  graph := .empty
  defaultTokens := defaultTokens.map String.toLower

/-- `build`. -/
def build (b : TokenAdjacencyGraphBuilder) : TokenAdjacencyGraph where
  graph := b.graph
  defaultTokens := b.defaultTokens

/-- `add` behind its check: the list under the first token, which starts as the defaults, gets the
second token unless it is there. -/
def addEdge (b : TokenAdjacencyGraphBuilder) (fromLower toLower : Address) :
    TokenAdjacencyGraphBuilder :=
  let graph :=
    match b.graph.get fromLower with
    | some _ => b.graph
    | none => b.graph.set fromLower b.defaultTokens
  match graph.get fromLower with
  | some toTokens => { b with graph := graph.set fromLower (JsSet.addTo toLower toTokens) }
  | none => { b with graph := graph }

/-- `add`. -/
def add (fromToken toToken : Address) : BuilderM Unit := fun b =>
  let fromLower := fromToken.toLower
  let toLower := toToken.toLower
  if fromLower = toLower then
    .error
      ("from token (" ++ fromToken ++ ") must be different from to token (" ++ toToken ++ ")") b
  else
    .ok () (b.addEdge fromLower toLower)

/-- `addBidirectional`. -/
def addBidirectional (tokenA tokenB : Address) : BuilderM Unit := do
  add tokenA tokenB
  add tokenB tokenA

/-- `addCompleteSubgraph`: each token with each one behind it. -/
def addCompleteSubgraph : List Address → BuilderM Unit
  | [] => pure ()
  | token :: behind => do
    behind.forM fun other => addBidirectional token other
    addCompleteSubgraph behind

end TokenAdjacencyGraphBuilder

open TokenAdjacencyGraphBuilder

/-- `getEmptyGraph`. -/
def getEmptyGraph : TokenAdjacencyGraph := (create []).build

/-- A call of one of the methods that add edges. -/
inductive Call where
  | add (fromToken toToken : Address)
  | addBidirectional (tokenA tokenB : Address)
  | addCompleteSubgraph (tokens : List Address)

/-- What a call does. -/
def Call.run : Call → BuilderM Unit
  | .add fromToken toToken => TokenAdjacencyGraphBuilder.add fromToken toToken
  | .addBidirectional tokenA tokenB => TokenAdjacencyGraphBuilder.addBidirectional tokenA tokenB
  | .addCompleteSubgraph tokens => TokenAdjacencyGraphBuilder.addCompleteSubgraph tokens

/-- One call after the other; what one throws ends the rest. -/
def runCalls (calls : List Call) : BuilderM Unit := calls.forM Call.run

/-! ## Every call is a list of `add`s -/

/-- The arguments that `addCompleteSubgraph` adds, in order. -/
def subgraphAttempts : List Address → List (Address × Address)
  | [] => []
  | token :: behind =>
    (behind.flatMap fun other => [(token, other), (other, token)]) ++ subgraphAttempts behind

/-- The arguments that a call adds, in order. -/
def Call.attempts : Call → List (Address × Address)
  | .add fromToken toToken => [(fromToken, toToken)]
  | .addBidirectional tokenA tokenB => [(tokenA, tokenB), (tokenB, tokenA)]
  | .addCompleteSubgraph tokens => subgraphAttempts tokens

/-- Add one pair after the other. -/
def addAll (edges : List (Address × Address)) : BuilderM Unit :=
  edges.forM fun edge => add edge.1 edge.2

theorem addAll_append (edges edges' : List (Address × Address)) :
    addAll (edges ++ edges') = (do addAll edges; addAll edges') := List.forM_append

theorem addAll_flatMap {α : Type} (f : α → List (Address × Address)) (xs : List α) :
    addAll (xs.flatMap f) = xs.forM fun x => addAll (f x) := by
  induction xs with
  | nil => rfl
  | cons x xs ih =>
    rw [List.flatMap_cons, addAll_append, ih]
    rfl

theorem addBidirectional_eq (tokenA tokenB : Address) :
    addBidirectional tokenA tokenB = addAll [(tokenA, tokenB), (tokenB, tokenA)] := by
  show (do add tokenA tokenB; add tokenB tokenA) =
    (do add tokenA tokenB; (do add tokenB tokenA; pure ()))
  rw [bind_pure_unit]

theorem addCompleteSubgraph_eq (tokens : List Address) :
    addCompleteSubgraph tokens = addAll (subgraphAttempts tokens) := by
  induction tokens with
  | nil => rfl
  | cons token behind ih =>
    rw [subgraphAttempts, addAll_append, addAll_flatMap, ← ih]
    simp only [← addBidirectional_eq]
    rfl

theorem run_eq_addAll (call : Call) : call.run = addAll call.attempts := by
  cases call with
  | add fromToken toToken =>
    show add fromToken toToken = (do add fromToken toToken; pure ())
    rw [bind_pure_unit]
  | addBidirectional tokenA tokenB => exact addBidirectional_eq tokenA tokenB
  | addCompleteSubgraph tokens => exact addCompleteSubgraph_eq tokens

/-- What is added by a list of calls, in order. -/
def attempts (calls : List Call) : List (Address × Address) := calls.flatMap Call.attempts

theorem runCalls_eq_addAll (calls : List Call) : runCalls calls = addAll (attempts calls) := by
  rw [attempts, addAll_flatMap]
  simp only [← run_eq_addAll]
  rfl

/-- The two tokens of a pair differ in more than letter case. -/
def Distinct (edge : Address × Address) : Prop := edge.1.toLower ≠ edge.2.toLower

/-- The builder after pairs that were added without a throw. -/
def withEdges (b : TokenAdjacencyGraphBuilder) (edges : List (Address × Address)) :
    TokenAdjacencyGraphBuilder :=
  edges.foldl (fun b edge => b.addEdge edge.1.toLower edge.2.toLower) b

theorem add_of_distinct {edge : Address × Address} (h : Distinct edge)
    (b : TokenAdjacencyGraphBuilder) :
    add edge.1 edge.2 b = .ok () (b.addEdge edge.1.toLower edge.2.toLower) := if_neg h

/-- Adding pairs succeeds when each is of two tokens. -/
theorem addAll_of_distinct {edges : List (Address × Address)} (h : ∀ edge ∈ edges, Distinct edge)
    (b : TokenAdjacencyGraphBuilder) : addAll edges b = .ok () (withEdges b edges) := by
  induction edges generalizing b with
  | nil => rfl
  | cons edge edges ih =>
    rw [List.forall_mem_cons] at h
    show EStateM.bind (add edge.1 edge.2) (fun _ => addAll edges) b = _
    rw [EStateM.bind, add_of_distinct h.1]
    exact ih h.2 _

/-- Only then: a pair of one token throws. -/
theorem distinct_of_addAll {edges : List (Address × Address)} {b b' : TokenAdjacencyGraphBuilder}
    (h : addAll edges b = .ok () b') : ∀ edge ∈ edges, Distinct edge := by
  induction edges generalizing b with
  | nil =>
    intro edge hmem
    exact absurd hmem List.not_mem_nil
  | cons edge edges ih =>
    rw [List.forall_mem_cons]
    change EStateM.bind (add edge.1 edge.2) (fun _ => addAll edges) b = _ at h
    rw [EStateM.bind] at h
    by_cases hdistinct : Distinct edge
    · rw [add_of_distinct hdistinct] at h
      exact ⟨hdistinct, ih h⟩
    · have hthrow : ∃ message, add edge.1 edge.2 b = .error message b :=
        ⟨_, if_pos (not_not.mp hdistinct)⟩
      obtain ⟨message, hthrow⟩ := hthrow
      rw [hthrow] at h
      cases h

/-! ## What an edge does to the tokens next to each token -/

/-- The list under the first token of an edge gets the second one, and no other list changes. -/
theorem get_addEdge (b : TokenAdjacencyGraphBuilder) (fromLower toLower key : Address) :
    (b.addEdge fromLower toLower).graph.get key =
      if key = fromLower then
        some (JsSet.addTo toLower ((b.graph.get fromLower).getD b.defaultTokens))
      else b.graph.get key := by
  unfold addEdge
  cases hget : b.graph.get fromLower with
  | some toTokens =>
    simp only [hget, JsMap.get_set, Option.getD_some]
  | none =>
    simp only [JsMap.get_set, if_true, Option.getD_none]
    by_cases hkey : key = fromLower
    · rw [if_pos hkey, if_pos hkey]
    · rw [if_neg hkey, if_neg hkey, if_neg hkey]

theorem defaultTokens_addEdge (b : TokenAdjacencyGraphBuilder) (fromLower toLower : Address) :
    (b.addEdge fromLower toLower).defaultTokens = b.defaultTokens := by
  unfold addEdge
  dsimp only
  split <;> rfl

theorem mem_adjacent_addEdge (b : TokenAdjacencyGraphBuilder)
    (fromLower toLower token x : Address) :
    x ∈ (b.addEdge fromLower toLower).build.getAdjacentTokens token ↔
      x ∈ b.build.getAdjacentTokens token ∨ (token.toLower = fromLower ∧ x = toLower) := by
  simp only [TokenAdjacencyGraph.getAdjacentTokens, build, get_addEdge, defaultTokens_addEdge]
  by_cases htoken : token.toLower = fromLower
  · rw [if_pos htoken, Option.getD_some, JsSet.mem_addTo, htoken]
    simp only [true_and]
  · simp only [htoken, if_false, false_and, or_false]

/-- The tokens next to each token are those from before and what the edges add. -/
theorem mem_adjacent_withEdges (edges : List (Address × Address)) (b : TokenAdjacencyGraphBuilder)
    (token x : Address) :
    x ∈ (withEdges b edges).build.getAdjacentTokens token ↔
      x ∈ b.build.getAdjacentTokens token ∨
        ∃ edge ∈ edges, token.toLower = edge.1.toLower ∧ x = edge.2.toLower := by
  induction edges generalizing b with
  | nil => simp [withEdges]
  | cons edge edges ih =>
    show x ∈ (withEdges (b.addEdge edge.1.toLower edge.2.toLower) edges).build.getAdjacentTokens
      token ↔ _
    rw [ih, mem_adjacent_addEdge, List.exists_mem_cons_iff, or_assoc]

/-- A token without edges keeps the list it had. -/
theorem adjacent_withEdges_of_untouched {edges : List (Address × Address)} {token : Address}
    (h : ∀ edge ∈ edges, token.toLower ≠ edge.1.toLower) (b : TokenAdjacencyGraphBuilder) :
    (withEdges b edges).build.getAdjacentTokens token = b.build.getAdjacentTokens token := by
  induction edges generalizing b with
  | nil => rfl
  | cons edge edges ih =>
    rw [List.forall_mem_cons] at h
    show (withEdges (b.addEdge edge.1.toLower edge.2.toLower) edges).build.getAdjacentTokens
      token = _
    rw [ih h.2]
    simp only [TokenAdjacencyGraph.getAdjacentTokens, build, get_addEdge, defaultTokens_addEdge,
      if_neg h.1]

/-! ## The edges of a call, without an order -/

/-- A call makes the second token one of those next to the first; both in lower case. -/
def Call.Adds : Call → Address → Address → Prop
  | .add fromToken toToken, x, y => x = fromToken.toLower ∧ y = toToken.toLower
  | .addBidirectional tokenA tokenB, x, y =>
    (x = tokenA.toLower ∧ y = tokenB.toLower) ∨ (x = tokenB.toLower ∧ y = tokenA.toLower)
  | .addCompleteSubgraph tokens, x, y =>
    ∃ i j : ℕ, i ≠ j ∧ ∃ s ∈ tokens[i]?, ∃ t ∈ tokens[j]?, x = s.toLower ∧ y = t.toLower

/-- The pairs of a subgraph are those of tokens at two different places. -/
theorem mem_subgraphAttempts {tokens : List Address} {s t : Address} :
    (s, t) ∈ subgraphAttempts tokens ↔
      ∃ i j : ℕ, i ≠ j ∧ s ∈ tokens[i]? ∧ t ∈ tokens[j]? := by
  induction tokens with
  | nil => simp [subgraphAttempts]
  | cons token behind ih =>
    have hhead : (s, t) ∈ (behind.flatMap fun other => [(token, other), (other, token)]) ↔
        (s = token ∧ t ∈ behind) ∨ (t = token ∧ s ∈ behind) := by
      simp only [List.mem_flatMap, List.mem_cons, List.not_mem_nil, or_false, Prod.mk.injEq]
      constructor
      · rintro ⟨other, hmem, ⟨rfl, rfl⟩ | ⟨rfl, rfl⟩⟩
        · exact .inl ⟨rfl, hmem⟩
        · exact .inr ⟨rfl, hmem⟩
      · rintro (⟨rfl, hmem⟩ | ⟨rfl, hmem⟩)
        · exact ⟨t, hmem, .inl ⟨rfl, rfl⟩⟩
        · exact ⟨s, hmem, .inr ⟨rfl, rfl⟩⟩
    rw [subgraphAttempts, List.mem_append, hhead, ih]
    constructor
    · rintro ((⟨rfl, hmem⟩ | ⟨rfl, hmem⟩) | ⟨i, j, hne, hs, ht⟩)
      · obtain ⟨j, hj⟩ := List.mem_iff_getElem?.mp hmem
        exact ⟨0, j + 1, (Nat.succ_ne_zero j).symm, rfl, hj⟩
      · obtain ⟨i, hi⟩ := List.mem_iff_getElem?.mp hmem
        exact ⟨i + 1, 0, Nat.succ_ne_zero i, hi, rfl⟩
      · exact ⟨i + 1, j + 1, fun h => hne (Nat.succ.inj h), hs, ht⟩
    · -- at most one of the two places is the head
      rintro ⟨i, j, hne, hs, ht⟩
      rcases i with _ | i
      · rcases j with _ | j
        · exact absurd rfl hne
        · cases hs
          exact .inl (.inl ⟨rfl, List.mem_iff_getElem?.mpr ⟨j, ht⟩⟩)
      · rcases j with _ | j
        · cases ht
          exact .inl (.inr ⟨rfl, List.mem_iff_getElem?.mpr ⟨i, hs⟩⟩)
        · exact .inr ⟨i, j, fun h => hne (congrArg Nat.succ h), hs, ht⟩

theorem adds_iff_attempts (call : Call) (x y : Address) :
    call.Adds x y ↔ ∃ edge ∈ call.attempts, x = edge.1.toLower ∧ y = edge.2.toLower := by
  cases call with
  | add fromToken toToken => simp [Call.Adds, Call.attempts]
  | addBidirectional tokenA tokenB => simp [Call.Adds, Call.attempts]
  | addCompleteSubgraph tokens =>
    constructor
    · rintro ⟨i, j, hne, s, hs, t, ht, hx, hy⟩
      exact ⟨(s, t), mem_subgraphAttempts.mpr ⟨i, j, hne, hs, ht⟩, hx, hy⟩
    · rintro ⟨⟨s, t⟩, hmem, hx, hy⟩
      obtain ⟨i, j, hne, hs, ht⟩ := mem_subgraphAttempts.mp hmem
      exact ⟨i, j, hne, s, hs, t, ht, hx, hy⟩

/-- The second token is made one of those next to the first by one of the calls. -/
def Added (calls : List Call) (x y : Address) : Prop := ∃ call ∈ calls, call.Adds x y

theorem added_iff_attempts (calls : List Call) (x y : Address) :
    Added calls x y ↔ ∃ edge ∈ attempts calls, x = edge.1.toLower ∧ y = edge.2.toLower := by
  simp only [Added, adds_iff_attempts, attempts, List.mem_flatMap]
  constructor
  · rintro ⟨call, hcall, edge, hedge, h⟩
    exact ⟨edge, ⟨call, hcall, hedge⟩, h⟩
  · rintro ⟨edge, ⟨call, hcall, hedge⟩, h⟩
    exact ⟨call, hcall, edge, hedge, h⟩

/-- No call throws exactly when none adds a token to those next to itself. -/
theorem runCalls_ok_iff (calls : List Call) (b : TokenAdjacencyGraphBuilder) :
    (∃ b', runCalls calls b = .ok () b') ↔ ∀ x, ¬ Added calls x x := by
  rw [runCalls_eq_addAll]
  constructor
  · rintro ⟨b', hb'⟩ x hadded
    obtain ⟨edge, hmem, hx, hy⟩ := (added_iff_attempts calls x x).mp hadded
    exact distinct_of_addAll hb' edge hmem (hx.symm.trans hy)
  · intro h
    refine ⟨_, addAll_of_distinct (fun edge hmem heq => ?_) b⟩
    exact h edge.1.toLower ((added_iff_attempts calls _ _).mpr ⟨edge, hmem, rfl, heq⟩)

theorem runCalls_eq_withEdges {calls : List Call} {b b' : TokenAdjacencyGraphBuilder}
    (hrun : runCalls calls b = .ok () b') : b' = withEdges b (attempts calls) := by
  rw [runCalls_eq_addAll] at hrun
  have hrun' := addAll_of_distinct (distinct_of_addAll hrun) b
  rw [hrun] at hrun'
  cases hrun'
  rfl

/-- The tokens next to each token after calls that did not throw. -/
theorem mem_adjacent_of_run {defaultTokens : List Address} {calls : List Call}
    {b : TokenAdjacencyGraphBuilder} (hrun : runCalls calls (create defaultTokens) = .ok () b)
    (token x : Address) :
    x ∈ b.build.getAdjacentTokens token ↔
      x ∈ defaultTokens.map String.toLower ∨ Added calls token.toLower x := by
  rw [runCalls_eq_withEdges hrun, mem_adjacent_withEdges, added_iff_attempts]
  rfl

/-! ## The graph of a list of calls -/

/-- A graph has the default tokens and the added ones next to each token, and the tokens between
two are those next to either, but for the two. -/
structure IsGraphOf (defaultTokens : List Address) (calls : List Call) (g : TokenAdjacencyGraph) :
    Prop where
  adjacent : ∀ token x, x ∈ g.getAdjacentTokens token ↔
    x ∈ defaultTokens.map String.toLower ∨ Added calls token.toLower x
  untouched : ∀ token, (∀ x, ¬ Added calls token.toLower x) →
    g.getAdjacentTokens token = defaultTokens.map String.toLower
  nodup : ∀ takerToken makerToken, (g.getIntermediateTokens takerToken makerToken).Nodup
  intermediate : ∀ takerToken makerToken x, x ∈ g.getIntermediateTokens takerToken makerToken ↔
    (x ∈ g.getAdjacentTokens takerToken ∨ x ∈ g.getAdjacentTokens makerToken) ∧
      x ≠ takerToken.toLower ∧ x ≠ makerToken.toLower
  lowerCase : ∀ takerToken makerToken, ∀ x ∈ g.getIntermediateTokens takerToken makerToken,
    x.toLower = x
  anyCase : ∀ takerToken takerToken' makerToken makerToken',
    takerToken'.toLower = takerToken.toLower → makerToken'.toLower = makerToken.toLower →
      g.getIntermediateTokens takerToken' makerToken' =
        g.getIntermediateTokens takerToken makerToken

theorem mem_intermediate (g : TokenAdjacencyGraph) (takerToken makerToken x : Address) :
    x ∈ g.getIntermediateTokens takerToken makerToken ↔
      (x ∈ g.getAdjacentTokens takerToken ∨ x ∈ g.getAdjacentTokens makerToken) ∧
        x ≠ takerToken.toLower ∧ x ≠ makerToken.toLower := by
  simp only [TokenAdjacencyGraph.getIntermediateTokens, union, List.mem_filter, JsSet.mem_ofList,
    List.mem_append, Bool.and_eq_true, decide_eq_true_eq]

/-- What calls add is in lower case. -/
theorem toLower_of_added {calls : List Call} {x y : Address} (h : Added calls x y) :
    y.toLower = y := by
  obtain ⟨edge, _, _, rfl⟩ := (added_iff_attempts calls x y).mp h
  exact toLower_toLower _

theorem isGraphOf_of_run {defaultTokens : List Address} {calls : List Call}
    {b : TokenAdjacencyGraphBuilder} (hrun : runCalls calls (create defaultTokens) = .ok () b) :
    IsGraphOf defaultTokens calls b.build where
  adjacent := mem_adjacent_of_run hrun
  untouched := by
    intro token hnone
    rw [runCalls_eq_withEdges hrun, adjacent_withEdges_of_untouched]
    · rfl
    · intro edge hmem heq
      exact hnone edge.2.toLower ((added_iff_attempts calls _ _).mpr ⟨edge, hmem, heq, rfl⟩)
  nodup := fun takerToken makerToken => (JsSet.ofList _).nodup.filter _
  intermediate := mem_intermediate b.build
  lowerCase := by
    intro takerToken makerToken x hmem
    have hlower : ∀ token, x ∈ b.build.getAdjacentTokens token → x.toLower = x := by
      intro token hadjacent
      rcases (mem_adjacent_of_run hrun token x).mp hadjacent with hdefault | hadded
      · obtain ⟨default, _, rfl⟩ := List.mem_map.mp hdefault
        exact toLower_toLower default
      · exact toLower_of_added hadded
    rcases ((mem_intermediate _ _ _ _).mp hmem).1 with htaker | hmaker
    · exact hlower takerToken htaker
    · exact hlower makerToken hmaker
  anyCase := by
    intro takerToken takerToken' makerToken makerToken' htaker hmaker
    simp only [TokenAdjacencyGraph.getIntermediateTokens, TokenAdjacencyGraph.getAdjacentTokens,
      htaker, hmaker]

/-! ## The order of the calls, and letter case -/

/-- A call with its tokens in lower case. -/
def Call.toLower : Call → Call
  | .add fromToken toToken => .add fromToken.toLower toToken.toLower
  | .addBidirectional tokenA tokenB => .addBidirectional tokenA.toLower tokenB.toLower
  | .addCompleteSubgraph tokens => .addCompleteSubgraph (tokens.map String.toLower)

theorem adds_toLower (call : Call) (x y : Address) : call.toLower.Adds x y ↔ call.Adds x y := by
  cases call with
  | add fromToken toToken => simp only [Call.toLower, Call.Adds, toLower_toLower]
  | addBidirectional tokenA tokenB => simp only [Call.toLower, Call.Adds, toLower_toLower]
  | addCompleteSubgraph tokens =>
    simp only [Call.toLower, Call.Adds, List.getElem?_map, Option.mem_def, Option.map_eq_some_iff]
    constructor
    · rintro ⟨i, j, hne, _, ⟨s, hs, rfl⟩, _, ⟨t, ht, rfl⟩, hx, hy⟩
      rw [toLower_toLower] at hx hy
      exact ⟨i, j, hne, s, hs, t, ht, hx, hy⟩
    · rintro ⟨i, j, hne, s, hs, t, ht, hx, hy⟩
      refine ⟨i, j, hne, _, ⟨s, hs, rfl⟩, _, ⟨t, ht, rfl⟩, ?_⟩
      rw [toLower_toLower, toLower_toLower]
      exact ⟨hx, hy⟩

/-- Calls that are the same but for their order and letter case. -/
def SameCalls (calls calls' : List Call) : Prop :=
  (calls.map Call.toLower).Perm (calls'.map Call.toLower)

theorem added_map_toLower (calls : List Call) (x y : Address) :
    Added (calls.map Call.toLower) x y ↔ Added calls x y := by
  simp only [Added, List.mem_map, exists_exists_and_eq_and, adds_toLower]

theorem added_congr {calls calls' : List Call} (h : SameCalls calls calls') (x y : Address) :
    Added calls x y ↔ Added calls' x y := by
  rw [← added_map_toLower calls, ← added_map_toLower calls']
  simp only [Added, h.mem_iff]

/-- The same tokens next to each token, and between any two. -/
structure SameTokens (g g' : TokenAdjacencyGraph) : Prop where
  adjacent : ∀ token token', token.toLower = token'.toLower →
    ∀ x, x ∈ g.getAdjacentTokens token ↔ x ∈ g'.getAdjacentTokens token'
  intermediate : ∀ takerToken takerToken' makerToken makerToken',
    takerToken.toLower = takerToken'.toLower → makerToken.toLower = makerToken'.toLower →
      (g.getIntermediateTokens takerToken makerToken).Perm
        (g'.getIntermediateTokens takerToken' makerToken')

theorem sameTokens_of_adjacent {g g' : TokenAdjacencyGraph}
    (h : ∀ token token', token.toLower = token'.toLower →
      ∀ x, x ∈ g.getAdjacentTokens token ↔ x ∈ g'.getAdjacentTokens token') : SameTokens g g' where
  adjacent := h
  intermediate := by
    intro takerToken takerToken' makerToken makerToken' htaker hmaker
    have hnodup : ∀ g : TokenAdjacencyGraph, ∀ takerToken makerToken,
        (g.getIntermediateTokens takerToken makerToken).Nodup :=
      fun _ _ _ => (JsSet.ofList _).nodup.filter _
    rw [List.perm_ext_iff_of_nodup (hnodup g _ _) (hnodup g' _ _)]
    intro x
    rw [mem_intermediate, mem_intermediate, h _ _ htaker, h _ _ hmaker, htaker, hmaker]

/-- The graph that calls build which do not throw is theirs, and any other order and letter case of
the same calls and default tokens builds a graph with the same tokens. -/
theorem tokenAdjacencyGraph_spec {defaultTokens : List Address} {calls : List Call}
    {b : TokenAdjacencyGraphBuilder} (hrun : runCalls calls (create defaultTokens) = .ok () b) :
    IsGraphOf defaultTokens calls b.build ∧
      ∀ defaultTokens' calls',
        (defaultTokens.map String.toLower).Perm (defaultTokens'.map String.toLower) →
        SameCalls calls calls' →
          ∃ b', runCalls calls' (create defaultTokens') = .ok () b' ∧
            SameTokens b.build b'.build := by
  refine ⟨isGraphOf_of_run hrun, ?_⟩
  intro defaultTokens' calls' hdefaults hcalls
  have hok : ∀ x, ¬ Added calls' x x := by
    intro x hadded
    exact (runCalls_ok_iff calls _).mp ⟨b, hrun⟩ x ((added_congr hcalls x x).mpr hadded)
  obtain ⟨b', hrun'⟩ := (runCalls_ok_iff calls' (create defaultTokens')).mpr hok
  refine ⟨b', hrun', sameTokens_of_adjacent ?_⟩
  intro token token' htoken x
  rw [mem_adjacent_of_run hrun, mem_adjacent_of_run hrun', hdefaults.mem_iff, htoken,
    added_congr hcalls]

/-- A complete subgraph, and the same two edges one by one in another letter case. -/
theorem tokenAdjacencyGraph_spec_subgraph :
    ∃ b, runCalls [.addCompleteSubgraph ["0xA", "0xb"], .add "0xC" "0xa"] (create ["0xD"])
        = .ok () b ∧
      ∃ b', runCalls [.add "0xc" "0xA", .addCompleteSubgraph ["0xa", "0xB"]] (create ["0xd"])
          = .ok () b' ∧
        SameTokens b.build b'.build := by
  have hdistinct : ∀ edge ∈ attempts [.addCompleteSubgraph ["0xA", "0xb"], .add "0xC" "0xa"],
      Distinct edge := by
    unfold Distinct
    decide +kernel
  have hrun := addAll_of_distinct hdistinct (create ["0xD"])
  rw [← runCalls_eq_addAll] at hrun
  have hlower : ["0xA", "0xa", "0xb", "0xB", "0xC", "0xc", "0xD", "0xd"].map String.toLower =
      ["0xa", "0xa", "0xb", "0xb", "0xc", "0xc", "0xd", "0xd"] := by decide +kernel
  simp only [List.map_cons, List.map_nil, List.cons.injEq, and_true] at hlower
  obtain ⟨hA, ha, hb, hB, hC, hc, hD, hd⟩ := hlower
  have hdefaults : ["0xD"].map String.toLower = ["0xd"].map String.toLower := by
    rw [List.map_singleton, List.map_singleton, hD, hd]
  have hcalls : SameCalls [.addCompleteSubgraph ["0xA", "0xb"], .add "0xC" "0xa"]
      [.add "0xc" "0xA", .addCompleteSubgraph ["0xa", "0xB"]] := by
    simp only [SameCalls, List.map_cons, List.map_nil, Call.toLower, hA, ha, hb, hB, hC, hc]
    exact List.Perm.swap _ _ _
  exact ⟨_, hrun, (tokenAdjacencyGraph_spec hrun).2 _ _ (.of_eq hdefaults) hcalls⟩

end ZeroExApi.TokenAdjacency
