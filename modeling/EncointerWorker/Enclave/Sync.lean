import EncointerWorker.Enclave.Responses

/-!
  EncointerWorker.Enclave.Sync — the block import ECALL `sync_chain_relay` and the query
  ECALL `get_state` (`enclave/src/lib.rs`).

  `sync_chain_relay` unseals the light client into a local, and for each signed block of the
  batch: checks the inclusion of its own extrinsics, submits the header (`Err` aborts the
  ECALL), runs `update_states` (which writes every shard's state file) and executes the
  block's `call_worker` extrinsics (each writes its shard's file and yields a
  `CALL_CONFIRMED`).  Only at the end does `stf_post_actions` compose the confirmations
  into extrinsics, queue them in the local light client and seal it.

  The module holds the definitions only; what they do is proved in `Enclave.Frame` (what
  one block may change), `Enclave.Trust` (the headers acted on), `Enclave.Persist` (the seal
  and the files) and `Enclave.Calls` (the confirmations).
-/

namespace EncointerWorker.Enclave

open EncointerWorker.Relay EncointerWorker.Stf EncointerWorker.Lib.AssocMap

variable {H A Acc : Type}

/-! ## §1. Helpers of the enclave code. -/

section Helpers

/-- Run `x`, mapping its `Err` status to `s` (`if x.is_err() { return s }`); a panic stays a
    panic. -/
def mapStatus {α : Type} (x : EnclaveM H A α) (s : SgxStatus) : EnclaveM H A α := fun w =>
  match x w with
  | .error (.status _) w' => .error (.status s) w'
  | r => r

/-- Run `x`, replacing its `Err` by `default` (`if let Err(e) = x { error!(..) }`). -/
def catchStatus {α : Type} (x : EnclaveM H A α) (default : α) : EnclaveM H A α := fun w =>
  match x w with
  | .error (.status _) w' => .ok default w'
  | r => r

/-- `write_slice_and_whitespace_pad`: panics when the data does not fit the buffer. -/
def writeSliceAndWhitespacePad (writableLen : Nat) (data : Bytes) : EnclaveM H A Bytes :=
  if data.length > writableLen then abort
  else pure (data ++ List.replicate (writableLen - data.length) 0x20)

end Helpers

section Ecall

variable [DecidableEq H] (env : Env H A Acc)

/-! ## §2. Storage requests, `update_states`. -/

/-- Request `keys` at `header` through the host and verify the answers against the header's
    state root (the ghost trace records the header's use). -/
def requestVerified (keys : List Bytes) (header : Header H) : EnclaveM H A UpdateMap := do
  let requests := keys.map fun key => WorkerRequest.chainStorage key (some (env.S.hash header))
  let responses ← workerRequest env requests
  record (.provedStorage header)
  liftStatus (verifyWorkerResponses env.S responses header)

/-- The body of `update_states`' loop for one shard `s`. -/
def updateShard (header : Header H) (updateMap : UpdateMap) (s : H) : EnclaveM H A Unit := do
  if !(← stateExists s) then initShard s
  -- per shard (cid) requests
  let perShardUpdateMap ← requestVerified env (storageHashesToUpdatePerShard env.C s) header
  let state ← stateLoad env s
  let state := updateStorage env.C env.R state perShardUpdateMap
  let state := updateStorage env.C env.R state updateMap
  let state := updateBlockNumber env.C state header.number
  let _ ← stateWrite env state s

/-- The loop of `update_states` over the registered shards. -/
def updateShards (header : Header H) (updateMap : UpdateMap) : List H → EnclaveM H A Unit
  | [] => pure ()
  | s :: shards => do
    updateShard env header updateMap s
    updateShards header updateMap shards

/-- `update_states(header)`: sync the global keys, then every registered shard. -/
def updateStates (header : Header H) : EnclaveM H A Unit := do
  let keys := storageHashesToUpdateOnBlock env.C
  if keys.isEmpty then return
  let updateMap ← requestVerified env keys header
  match get updateMap (shardsKeyHash env.C) with
  | some (some shards) =>
    -- "error decoding shards"
    let shards ← liftStatus (match env.decodeShards shards with
      | some shards => .ok shards
      | none => .error .errorUnexpected)
    updateShards env header updateMap shards
  -- "No shards are on the chain yet", or no answer for the key
  | _ => pure ()

/-! ## §3. Trusted calls. -/

/-- `handle_call_worker_xt(calls, xt, header)`: the `CALL_CONFIRMED` it pushes, if any. -/
def handleCallWorkerXt (xt : CallWorkerXt H) (header : Header H) :
    EnclaveM H A (Option (OpaqueCall H)) := do
  let shard := xt.request.shard
  let requestVec ← liftStatus (env.rsaDecrypt xt.request.cyphertext)
  match env.decodeTrustedCallSigned requestVec with
  -- "could not decode TrustedCallSigned"
  | none => pure none
  | some stfCallSigned =>
    -- "TrustedCallSigned: bad signature"
    if !(stfCallSigned.verifySignature env.C env.mrenclave shard) then pure none
    else
      let state ← if (← stateExists shard) then stateLoad env shard
        else do
          initShard shard
          pure (initState env.C)
      let updateMap ← requestVerified env (getStorageHashesToUpdate env.C stfCallSigned) header
      let state := updateStorage env.C env.R state updateMap
      match execute env.C env.R state stfCallSigned with
      | none => abort
      -- "Error performing Stf::execute"
      | some (.error _) => pure none
      | some (.ok state) =>
        let stateHash ← stateWrite env state shard
        pure (some (.callConfirmed shard (env.blake2_256 requestVec) stateHash))

/-- The loop of `scan_block_for_relevant_xt` over the block's extrinsics; an `Err` of
    `handle_call_worker_xt` is logged and the loop goes on. -/
def scanExtrinsics (header : Header H) : List Bytes → EnclaveM H A (List (OpaqueCall H))
  | [] => pure []
  | xtOpaque :: xts => do
    let call ← match env.decodeCallWorker xtOpaque with
      | some xt =>
        if xt.callIndex = [SUBSRATEE_REGISTRY_MODULE, CALL_WORKER] then
          catchStatus (handleCallWorkerXt env xt header) none
        else pure none
      | none => pure none
    let calls ← scanExtrinsics header xts
    pure (call.toList ++ calls)

/-- `scan_block_for_relevant_xt(block)` (the ghost trace records the block's use). -/
def scanBlockForRelevantXt (block : Block H) : EnclaveM H A (List (OpaqueCall H)) := do
  record (.executedBlock block.header)
  scanExtrinsics env block.header block.extrinsics

/-! ## §4. `sync_chain_relay` and `stf_post_actions`. -/

/-- The loop of `sync_chain_relay` over the batch, with the light client in a local and the
    calls collected so far. -/
def syncBlocks : LightValidation H A → List (OpaqueCall H) → List (SignedBlock H) →
    EnclaveM H A (LightValidation H A × List (OpaqueCall H))
  | validator, calls, [] => pure (validator, calls)
  | validator, calls, signedBlock :: blocks => do
    let (r, validator) ← relayCall (checkXtInclusion env.S validator validator.numRelays
      signedBlock.block)
    -- "panic can only happen if relay_id is does not exist"
    unwrapExcept r
    let (r, validator) ← relayCall (submitSimpleHeader env.S validator validator.numRelays
      signedBlock.block.header signedBlock.justification)
    match r with
    -- "Block verification failed"
    | .error _ => fail .errorUnexpected
    | .ok () =>
      -- "Error performing state updates upon block import"
      mapStatus (updateStates env signedBlock.block.header) .errorUnexpected
      let c ← scanBlockForRelevantXt env signedBlock.block
      syncBlocks validator (calls ++ c) blocks

/-- The composed extrinsics of the confirmations, nonces counting up. -/
def composeCalls (validator : LightValidation H A) : Nat → List (OpaqueCall H) →
    EnclaveM H A (List Bytes)
  | _, [] => pure []
  | nonce, call :: calls => do
    let genesis ← unwrapOption (genesisHash validator validator.numRelays)
    let genesis ← unwrapExcept genesis
    let xts ← composeCalls validator (nonce + 1) calls
    pure (env.composeExtrinsic call nonce genesis :: xts)

/-- Queue each composed extrinsic in the light client (`submit_xt_to_be_included(..).unwrap()`). -/
def submitAll : LightValidation H A → List Bytes → EnclaveM H A (LightValidation H A)
  | validator, [] => pure validator
  | validator, xt :: xts => do
    let (r, validator) ← relayCall (submitXtToBeIncluded validator validator.numRelays xt)
    unwrapExcept r
    submitAll validator xts

/-- `stf_post_actions(validator, calls, extrinsics_slice, nonce)`: the padded output buffer. -/
def stfPostActions (validator : LightValidation H A) (calls : List (OpaqueCall H))
    (extrinsicsSliceLen : Nat) (nonce : Nat) : EnclaveM H A Bytes := do
  let extrinsicsBuffer ← composeCalls env validator nonce calls
  let validator ← submitAll validator extrinsicsBuffer
  let out ← writeSliceAndWhitespacePad extrinsicsSliceLen (env.encodeExtrinsics extrinsicsBuffer)
  sealRelay validator
  pure out

/-- **The ECALL `sync_chain_relay(blocks, nonce, unchecked_extrinsic)`**: the buffer it
    fills; `SGX_SUCCESS` is `.ok`. -/
def syncChainRelay (blocks : List (SignedBlock H)) (nonce : Nat) (extrinsicsSliceLen : Nat) :
    EnclaveM H A Bytes := do
  let validator ← unsealRelay
  let (validator, calls) ← syncBlocks env validator [] blocks
  mapStatus (stfPostActions env validator calls extrinsicsSliceLen nonce) .errorUnexpected

/-- **The ECALL `get_state(getter, shard, value)`**: the buffer it fills.  The state updated
    from the chain is not written back. -/
def getStateEcall (getter : Getter Acc H) (shard : H) (valueLen : Nat)
    (encodeValue : Option Bytes → Bytes) : EnclaveM H A Bytes := do
  if let .trusted g := getter then
    -- "bad signature"
    if !(g.verifySignature env.C) then fail .errorUnexpected
  if !(← stateExists shard) then initShard shard
  let state ← stateLoad env shard
  let validator ← unsealRelay
  let latestHeader ← unwrapExcept (latestHeader validator validator.numRelays)
  let keys := getStorageHashesToUpdateForGetter env.C getter
  let state ← if keys.isEmpty then pure state
    else do
      let updateMap ← requestVerified env keys latestHeader
      pure (updateStorage env.C env.R state updateMap)
  writeSliceAndWhitespacePad valueLen (encodeValue (env.R.getState getter state))

end Ecall

end EncointerWorker.Enclave
