/-
# ZeroExApi.SamplerBatch — many sampler operations in one call of the contract

`DexOrderSampler.executeBatchAsync` drops the operations without call data, sends the call data of
the others to `batchCall`, and gives the results out again through a running index.  `_createBatch`
makes one operation of several, whose call data is again a `batchCall`.

`executeBatchAsync_ownOutcome` says that every operation is handed the outcome of its own call, and
that a nested batch hands its handler what its members give when each is executed alone.  The
members are any operations, so this holds at every depth.  The outcomes of the calls are arbitrary:
`call i callData` is what the contract's `i`-th call to itself returns.

The generated wrapper of the contract, which encodes and decodes, is a parameter.
-/

import ZeroExApi.Types

namespace ZeroExApi.SamplerBatch

abbrev Bytes := List UInt8

/-- `NULL_BYTES`: `0x`. -/
def NULL_BYTES : Bytes := []

/-! ## The contract -/

/-- `SamplerCallResult`, the contract's `CallResults`. -/
structure SamplerCallResult where
  data : Bytes
  success : Bool
  deriving DecidableEq

/-- `batchCall`: call data of length zero is not called.  The call to the contract itself, the
`i`-th of the batch, is `call i`. -/
def batchCall (call : ℕ → Bytes → SamplerCallResult) (callDatas : List Bytes) :
    List SamplerCallResult :=
  callDatas.mapIdx fun i callData =>
    if callData.length = 0 then { success := true, data := [] } else call i callData

/-- `ERC20BridgeSamplerContract`, as far as `batchCall` goes: `getABIEncodedTransactionData` of its
argument, which begins with the selector, and `getABIDecodedReturnData` of its result. -/
structure SamplerContract where
  encodeBatchCall : List Bytes → Bytes
  encodeBatchCall_ne : ∀ callDatas, encodeBatchCall callDatas ≠ NULL_BYTES
  decodeBatchCall : Bytes → Except JsError (List SamplerCallResult)

/-! ## Operations -/

/-- `BatchedOperation`. -/
structure BatchedOperation (T : Type) where
  encodeCall : Bytes
  handleCallResults : Bytes → Except JsError T
  handleRevert : Bytes → Except JsError T

namespace BatchedOperation

variable {T : Type}

/-- An operation without call data. -/
def isNoop (op : BatchedOperation T) : Bool := op.encodeCall == NULL_BYTES

/-- `success ? op.handleCallResults(data) : op.handleRevert(data)`. -/
def handle (op : BatchedOperation T) (result : SamplerCallResult) : Except JsError T :=
  if result.success then op.handleCallResults result.data else op.handleRevert result.data

end BatchedOperation

/-- `map` of functions that may throw: they run in order, up to the first that does. -/
def inOrder {T : Type} (results : List (Except JsError T)) : Except JsError (List T) :=
  results.mapM id

section

variable {T : Type}

@[simp]
theorem inOrder_nil : inOrder ([] : List (Except JsError T)) = .ok [] := rfl

@[simp]
theorem inOrder_cons (result : Except JsError T) (results : List (Except JsError T)) :
    inOrder (result :: results) = do
      let value ← result
      let values ← inOrder results
      return value :: values := by
  simp [inOrder]

/-! ## `sampler.ts` -/

/-- The last `map` of `executeBatchAsync`, with its `rawCallResultsIdx`. -/
def parseCallResults (rawCallResults : List SamplerCallResult) :
    List (BatchedOperation T) → ℕ → Except JsError (List T)
  | [], _ => .ok []
  | op :: ops, rawCallResultsIdx =>
    if op.encodeCall != NULL_BYTES then
      match rawCallResults[rawCallResultsIdx]? with
      | some rawCallResult => do
        let value ← op.handle rawCallResult
        let values ← parseCallResults rawCallResults ops (rawCallResultsIdx + 1)
        return value :: values
      | none => .error .typeError
    else do
      let value ← op.handle { success := true, data := NULL_BYTES }
      let values ← parseCallResults rawCallResults ops rawCallResultsIdx
      return value :: values

/-- `executeBatchAsync`; `callAsync` sends call data to `batchCall`. -/
def executeBatchAsync (callAsync : List Bytes → Except JsError (List SamplerCallResult))
    (ops : List (BatchedOperation T)) : Except JsError (List T) := do
  let callDatas := ops.map fun o => o.encodeCall
  -- All operations are NOOPs
  if callDatas.all fun cd => cd == NULL_BYTES then
    inOrder (ops.map fun op => op.handleCallResults NULL_BYTES)
  else
    let rawCallResults ← callAsync (callDatas.filter fun cd => cd != NULL_BYTES)
    parseCallResults rawCallResults ops 0

/-! ## `sampler_operations.ts` -/

/-- `_createBatch`. -/
def createBatch {R : Type} (contract : SamplerContract) (subOps : List (BatchedOperation R))
    (resultHandler : List R → Except JsError T) (revertHandler : Bytes → Except JsError T) :
    BatchedOperation T where
  encodeCall :=
    let subCalls := subOps.map fun op => op.encodeCall
    contract.encodeBatchCall subCalls
  handleCallResults := fun callResults => do
    let rawSubCallResults ← contract.decodeBatchCall callResults
    let results ← inOrder (subOps.mapIdx fun i op =>
      match rawSubCallResults[i]? with
      | some rawSubCallResult => op.handle rawSubCallResult
      | none => .error .typeError)
    resultHandler results
  handleRevert := revertHandler

/-! ## The outcome of each operation -/

/-- The raw outcome of the operation at place `k`: that of its own call, which is sent after those
of the operations before it, and of a no-op the empty data. -/
def rawOutcome (call : ℕ → Bytes → SamplerCallResult) (ops : List (BatchedOperation T)) (k : ℕ)
    (op : BatchedOperation T) : SamplerCallResult :=
  if op.isNoop then { success := true, data := NULL_BYTES }
  else call ((ops.take k).countP fun o => !o.isNoop) op.encodeCall

/-- Each operation handles its own raw outcome, in order. -/
def ownResults (call : ℕ → Bytes → SamplerCallResult) (ops : List (BatchedOperation T)) :
    Except JsError (List T) :=
  inOrder (ops.mapIdx fun k op => op.handle (rawOutcome call ops k op))

/-- Operations executed one by one, each in a batch of its own; the call of the `i`-th is answered
as the `i`-th of `call` is. -/
def executeEachAsync (call : ℕ → Bytes → SamplerCallResult) (ops : List (BatchedOperation T)) :
    Except JsError (List T) := do
  let results ← inOrder (ops.mapIdx fun i op =>
    executeBatchAsync (fun calls => .ok (batchCall (fun _ => call i) calls)) [op])
  return results.flatten

@[simp]
theorem batchCall_cons (call : ℕ → Bytes → SamplerCallResult) (callData : Bytes)
    (callDatas : List Bytes) :
    batchCall call (callData :: callDatas) =
      (if callData.length = 0 then { success := true, data := [] } else call 0 callData) ::
        batchCall (fun i => call (i + 1)) callDatas := by
  simp [batchCall, List.mapIdx_cons]

/-- After a no-op the calls are counted as before it. -/
theorem ownResults_cons_noop (call : ℕ → Bytes → SamplerCallResult) {op : BatchedOperation T}
    (hop : op.isNoop = true) (ops : List (BatchedOperation T)) :
    ownResults call (op :: ops) = do
      let value ← op.handle { success := true, data := NULL_BYTES }
      let values ← ownResults call ops
      return value :: values := by
  have hshift : ∀ k o, rawOutcome call (op :: ops) (k + 1) o = rawOutcome call ops k o := by
    intro k o
    simp [rawOutcome, hop]
  have hfirst : rawOutcome call (op :: ops) 0 op = { success := true, data := NULL_BYTES } := by
    simp [rawOutcome, hop]
  simp only [ownResults, List.mapIdx_cons, inOrder_cons, hshift, hfirst]

/-- An operation with call data takes the first outcome; the others follow. -/
theorem ownResults_cons_call (call : ℕ → Bytes → SamplerCallResult) {op : BatchedOperation T}
    (hop : op.isNoop = false) (ops : List (BatchedOperation T)) :
    ownResults call (op :: ops) = do
      let value ← op.handle (call 0 op.encodeCall)
      let values ← ownResults (fun i => call (i + 1)) ops
      return value :: values := by
  have hshift : ∀ k o,
      rawOutcome call (op :: ops) (k + 1) o = rawOutcome (fun i => call (i + 1)) ops k o := by
    intro k o
    simp [rawOutcome, hop]
  have hfirst : rawOutcome call (op :: ops) 0 op = call 0 op.encodeCall := by
    simp [rawOutcome, hop]
  simp only [ownResults, List.mapIdx_cons, inOrder_cons, hshift, hfirst]

/-- What is left to parse is what `batchCall` returned for the operations that are left: the
running index keeps the results aligned with the operations, wherever the no-ops are. -/
theorem parseCallResults_eq (call : ℕ → Bytes → SamplerCallResult)
    (rawCallResults : List SamplerCallResult) (ops : List (BatchedOperation T)) (idx : ℕ)
    (hleft : rawCallResults.drop idx =
      batchCall call ((ops.map fun o => o.encodeCall).filter fun cd => cd != NULL_BYTES)) :
    parseCallResults rawCallResults ops idx = ownResults call ops := by
  induction ops generalizing call idx with
  | nil => rfl
  | cons op ops ih =>
    by_cases hnull : op.encodeCall = NULL_BYTES
    · -- nothing was sent for a no-op, so the index stays
      have hnoop : op.isNoop = true := by simp [BatchedOperation.isNoop, hnull]
      have hrest := ih call idx (by simpa [hnull] using hleft)
      simp only [parseCallResults, hnull, bne_self_eq_false, Bool.false_eq_true, if_false, hrest,
        ownResults_cons_noop call hnoop ops]
    · have hsent : (op.encodeCall != NULL_BYTES) = true := bne_iff_ne.mpr hnull
      have hcall : op.isNoop = false := by simp [BatchedOperation.isNoop, hnull]
      have hlength : op.encodeCall.length ≠ 0 := by
        intro hzero
        exact hnull (List.length_eq_zero_iff.mp hzero)
      simp only [List.map_cons, List.filter_cons, hsent, if_true, batchCall_cons, hlength,
        if_false] at hleft
      have hresult : rawCallResults[idx]? = some (call 0 op.encodeCall) := by
        have hhead := congrArg List.head? hleft
        simpa [List.head?_drop] using hhead
      have htail : rawCallResults.drop (idx + 1) = batchCall (fun i => call (i + 1))
          ((ops.map fun o => o.encodeCall).filter fun cd => cd != NULL_BYTES) := by
        have htail := congrArg List.tail hleft
        simpa using htail
      have hrest := ih (fun i => call (i + 1)) (idx + 1) htail
      simp only [parseCallResults, hsent, if_true, hresult, hrest,
        ownResults_cons_call call hcall ops]

/-- Where nothing is called, every operation handles the empty data. -/
theorem ownResults_of_noops (call : ℕ → Bytes → SamplerCallResult)
    {ops : List (BatchedOperation T)} (hops : ∀ op ∈ ops, op.encodeCall = NULL_BYTES) :
    ownResults call ops = inOrder (ops.map fun op => op.handleCallResults NULL_BYTES) := by
  induction ops with
  | nil => rfl
  | cons op ops ih =>
    have hnoop : op.isNoop = true := by
      simp [BatchedOperation.isNoop, hops op List.mem_cons_self]
    rw [ownResults_cons_noop call hnoop, ih fun o ho => hops o (List.mem_cons_of_mem op ho)]
    simp [BatchedOperation.handle]

/-- A batch gives each operation its own outcome. -/
theorem executeBatchAsync_eq (call : ℕ → Bytes → SamplerCallResult)
    (ops : List (BatchedOperation T)) :
    executeBatchAsync (fun calls => .ok (batchCall call calls)) ops = ownResults call ops := by
  simp only [executeBatchAsync]
  split
  · rename_i hall
    have hnoops : ∀ op ∈ ops, op.encodeCall = NULL_BYTES := by simpa using hall
    exact (ownResults_of_noops call hnoops).symm
  · exact parseCallResults_eq call _ ops 0 rfl

/-! ## Nested batches -/

/-- A nested batch is never a no-op: its outcome is that of its own call. -/
theorem rawOutcome_createBatch {R : Type} (contract : SamplerContract)
    (subOps : List (BatchedOperation R)) (resultHandler : List R → Except JsError T)
    (revertHandler : Bytes → Except JsError T) (call : ℕ → Bytes → SamplerCallResult)
    (ops : List (BatchedOperation T)) (k : ℕ) :
    rawOutcome call ops k (createBatch contract subOps resultHandler revertHandler) =
      call ((ops.take k).countP fun o => !o.isNoop)
        (contract.encodeBatchCall (subOps.map fun op => op.encodeCall)) := by
  have hcalled :
      (createBatch contract subOps resultHandler revertHandler).isNoop = false := by
    simp [BatchedOperation.isNoop, createBatch, contract.encodeBatchCall_ne]
  rw [rawOutcome, hcalled]
  rfl

/-- An operation alone in a batch. -/
theorem executeBatchAsync_singleton (call : ℕ → Bytes → SamplerCallResult)
    (op : BatchedOperation T) :
    executeBatchAsync (fun calls => .ok (batchCall call calls)) [op] = do
      let value ← op.handle (rawOutcome call [op] 0 op)
      return [value] := by
  rw [executeBatchAsync_eq]
  simp only [ownResults, List.mapIdx_cons, List.mapIdx_nil, inOrder_cons, inOrder_nil]
  rfl

/-- Lists of one value each, in order, make the list of the values. -/
theorem inOrder_flatten (results : List (Except JsError T)) :
    (do
      let lists ← inOrder (results.map fun result => do
        let value ← result
        return [value])
      return lists.flatten) = inOrder results := by
  induction results with
  | nil => rfl
  | cons result results ih =>
    -- what throws first, throws in both
    cases result with
    | error e => rfl
    | ok value =>
      simp only [List.map_cons, inOrder_cons, ← ih]
      cases inOrder (results.map fun result => do
        let value ← result
        return [value]) with
      | error e => rfl
      | ok lists => rfl

/-- Each member handles what the contract returns at its place. -/
theorem executeEachAsync_eq (call : ℕ → Bytes → SamplerCallResult)
    (ops : List (BatchedOperation T)) :
    executeEachAsync call ops =
      inOrder (ops.mapIdx fun i op =>
        match (batchCall call (ops.map fun o => o.encodeCall))[i]? with
        | some result => op.handle result
        | none => .error .typeError) := by
  -- what the contract returns at a place is the raw outcome of the member alone
  have hmembers : (ops.mapIdx fun i op =>
        match (batchCall call (ops.map fun o => o.encodeCall))[i]? with
        | some result => op.handle result
        | none => .error .typeError) =
      ops.mapIdx fun i op => op.handle (rawOutcome (fun _ => call i) [op] 0 op) := by
    apply List.mapIdx_eq_mapIdx_iff.mpr
    intro i hi
    have hplace : (batchCall call (ops.map fun o => o.encodeCall))[i]? =
        some (rawOutcome (fun _ => call i) [ops[i]] 0 ops[i]) := by
      simp [batchCall, rawOutcome, BatchedOperation.isNoop, NULL_BYTES, hi]
    rw [hplace]
  have halone : (ops.mapIdx fun i op => op.handle (rawOutcome (fun _ => call i) [op] 0 op)).map
        (fun result => do
          let value ← result
          return [value]) =
      ops.mapIdx fun i op =>
        executeBatchAsync (fun calls => .ok (batchCall (fun _ => call i) calls)) [op] := by
    apply List.ext_getElem?
    intro i
    simp only [executeBatchAsync_singleton, List.getElem?_map, List.getElem?_mapIdx,
      Option.map_map]
    rfl
  rw [hmembers, ← inOrder_flatten, halone]
  rfl

/-- A nested batch that succeeded hands its handler the list its members give one by one. -/
theorem createBatch_handleCallResults {R : Type} (contract : SamplerContract)
    (subOps : List (BatchedOperation R)) (resultHandler : List R → Except JsError T)
    (revertHandler : Bytes → Except JsError T) {subCall : ℕ → Bytes → SamplerCallResult}
    {data : Bytes}
    (hdata : contract.decodeBatchCall data =
      .ok (batchCall subCall (subOps.map fun op => op.encodeCall))) :
    (createBatch contract subOps resultHandler revertHandler).handleCallResults data =
      executeEachAsync subCall subOps >>= resultHandler := by
  rw [executeEachAsync_eq]
  simp only [createBatch, hdata]
  rfl

/-- Whatever each call returns, every operation handles the raw outcome of its own call, in order.
A nested batch has a call of its own; where that reverts its revert handler gets the data, and where
it succeeds with data the contract's results are decoded from, its handler gets the list that its
members give when each is executed alone. -/
theorem executeBatchAsync_ownOutcome (contract : SamplerContract)
    (call : ℕ → Bytes → SamplerCallResult) (ops : List (BatchedOperation T)) :
    executeBatchAsync (fun calls => .ok (batchCall call calls)) ops =
        inOrder (ops.mapIdx fun k op => op.handle (rawOutcome call ops k op)) ∧
      ∀ (R : Type) (subOps : List (BatchedOperation R)) (resultHandler : List R → Except JsError T)
        (revertHandler : Bytes → Except JsError T) (k : ℕ) (data : Bytes) (success : Bool),
        let op := createBatch contract subOps resultHandler revertHandler
        let place := (ops.take k).countP fun o => !o.isNoop
        call place (contract.encodeBatchCall (subOps.map fun o => o.encodeCall)) =
            { data, success } →
          (success = false → op.handle (rawOutcome call ops k op) = revertHandler data) ∧
          (success = true → ∀ subCall,
            contract.decodeBatchCall data =
                .ok (batchCall subCall (subOps.map fun o => o.encodeCall)) →
              op.handle (rawOutcome call ops k op) =
                executeEachAsync subCall subOps >>= resultHandler) := by
  refine ⟨executeBatchAsync_eq call ops, ?_⟩
  intro R subOps resultHandler revertHandler k data success op place hcall
  have houtcome : rawOutcome call ops k op = { data, success } := by
    rw [rawOutcome_createBatch]
    exact hcall
  rw [houtcome]
  constructor
  · rintro rfl
    rfl
  · rintro rfl subCall hdata
    exact createBatch_handleCallResults contract subOps resultHandler revertHandler hdata

end

/-! ## A run -/

/-- An operation on numbers: the first byte of the result, and zero where the call reverts. -/
def sampleOp (encodeCall : Bytes) : BatchedOperation ℕ where
  encodeCall := encodeCall
  handleCallResults := fun data => .ok (data.headD 7).toNat
  handleRevert := fun _ => .ok 0

/-- A word of 32 bytes. -/
def word (byte : UInt8) : Bytes := List.replicate 31 0 ++ [byte]

/-- The contract's results `[(0x2a, true), (0x, false)]`, encoded. -/
def sampleReturnData : Bytes :=
  word 32 ++ word 2 ++ word 64 ++ word 192 ++
    (word 64 ++ word 1 ++ word 1 ++ (42 :: List.replicate 31 0)) ++
    (word 64 ++ word 0 ++ word 0)

/-- The call data of `batchCall([0x01, 0x02])`. -/
def sampleCallData : Bytes :=
  [0x68, 0xbe, 0x3c, 0xf2] ++ word 32 ++ word 2 ++ word 64 ++ word 128 ++
    (word 1 ++ (1 :: List.replicate 31 0)) ++ (word 1 ++ (2 :: List.replicate 31 0))

/-- A wrapper that knows one call and its result. -/
def sampleContract : SamplerContract where
  encodeBatchCall := fun _ => sampleCallData
  encodeBatchCall_ne := fun _ => List.cons_ne_nil _ _
  decodeBatchCall := fun data =>
    if data = sampleReturnData then
      .ok [{ data := [42], success := true }, { data := [], success := false }]
    else .error (.error "decode")

/-- The members: one that succeeds with 42, and one that reverts. -/
def sampleSubCall (i : ℕ) (_ : Bytes) : SamplerCallResult :=
  if i = 0 then { data := [42], success := true } else { data := [], success := false }

def sampleBatch : BatchedOperation ℕ :=
  createBatch sampleContract [sampleOp [1], sampleOp [2]] (fun results => .ok results.sum)
    fun _ => .ok 99

/-- A no-op, a nested batch and an operation that reverts. -/
def sampleOps : List (BatchedOperation ℕ) := [sampleOp [], sampleBatch, sampleOp [3]]

def sampleCall (i : ℕ) (_ : Bytes) : SamplerCallResult :=
  if i = 0 then { data := sampleReturnData, success := true } else { data := [], success := false }

theorem sampleContract_decode :
    sampleContract.decodeBatchCall sampleReturnData =
      .ok (batchCall sampleSubCall ([sampleOp [1], sampleOp [2]].map fun o => o.encodeCall)) := by
  simp [sampleContract, sampleSubCall, sampleOp, batchCall]

theorem executeBatchAsync_ownOutcome_sample :
    executeBatchAsync (fun calls => .ok (batchCall sampleCall calls)) sampleOps =
        .ok [7, 42, 0] ∧
      sampleBatch.handle (rawOutcome sampleCall sampleOps 1 sampleBatch) =
        executeEachAsync sampleSubCall [sampleOp [1], sampleOp [2]] >>= fun results =>
          .ok results.sum := by
  constructor
  · rw [(executeBatchAsync_ownOutcome sampleContract sampleCall sampleOps).1]
    decide +kernel
  · exact ((executeBatchAsync_ownOutcome sampleContract sampleCall sampleOps).2 ℕ
      [sampleOp [1], sampleOp [2]] (fun results => .ok results.sum) (fun _ => .ok 99) 1
      sampleReturnData true (by decide +kernel)).2 rfl sampleSubCall sampleContract_decode

end ZeroExApi.SamplerBatch
