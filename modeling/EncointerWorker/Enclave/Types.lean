import EncointerWorker.Relay.LightValidation
import EncointerWorker.Stf.Sgx
import EncointerWorker.Lib.Keystream

/-!
  EncointerWorker.Enclave.Types — the enclave's world and the monad its ECALLs run in
  (`enclave/src/{lib,io,aes,constants}.rs`).

  Shards, currencies and block hashes are one type `H` (`H256`).  What the enclave keeps on
  disk is the `World`: the sealed light client, the shard state files (taken to hold what
  the enclave last wrote: rollback of files by the host is outside this model), the sealed
  AES key and IV, and every `ocall_worker_request` so far.  The untrusted host answers an
  ocall with any function of all the requests it has seen (`Env.host`), so every
  quantification over `Env` ranges over every host strategy.

  An enclave function returns `Err(status)` or panics (`Fault`); both leave the world as
  far as it got, which `EStateM` models: its error result carries the state.  The ghost
  field `World.trace` records the enclave's uses of headers and its confirmations; it is
  not in the code and nothing the code computes reads it.
-/

namespace EncointerWorker.Enclave

open EncointerWorker.Relay EncointerWorker.Stf EncointerWorker.Lib.AssocMap

/-! ## §1. Statuses, ocall messages and calls. -/

/-- `sgx_status_t`, as far as the modelled code tells statuses apart. -/
inductive SgxStatus where
  | success
  | errorUnexpected
  /-- A status passed through from the SDK or an ocall. -/
  | other (code : Nat)
  deriving DecidableEq, Repr

/-- How an enclave function ends early: `Err(status)`, or a panic, which aborts the ECALL. -/
inductive Fault where
  | status (s : SgxStatus)
  | panic
  deriving DecidableEq, Repr

/-- `WorkerRequest`: a storage key and the block to read it at. -/
inductive WorkerRequest (H : Type) where
  | chainStorage (key : Bytes) (atBlock : Option H)
  deriving DecidableEq, Repr

/-- `WorkerResponse<Vec<u8>>`: key, value and the trie proof of it. -/
inductive WorkerResponse where
  | chainStorage (key : Bytes) (value : Option Bytes) (proof : Option StorageProof)
  deriving DecidableEq, Repr

/-- The key a response answers for. -/
def WorkerResponse.key : WorkerResponse → Bytes
  | .chainStorage key _ _ => key

/-- `SUBSRATEE_REGISTRY_MODULE`, `CALL_WORKER`, `CALL_CONFIRMED`. -/
def SUBSRATEE_REGISTRY_MODULE : UInt8 := 8

def CALL_WORKER : UInt8 := 2

def CALL_CONFIRMED : UInt8 := 3

/-- `Request { shard, cyphertext }` of a `call_worker` extrinsic. -/
structure Request (H : Type) where
  shard : H
  cyphertext : Bytes
  deriving DecidableEq, Repr

/-- A decoded `UncheckedExtrinsicV4<CallWorkerFn>`: `function = (call index, request)`. -/
structure CallWorkerXt (H : Type) where
  callIndex : List UInt8
  request : Request H
  deriving DecidableEq, Repr

/-- `OpaqueCall`: the one call the enclave builds, `CALL_CONFIRMED` with its shard, the
    `blake2_256` of the decrypted request, and the hash of the new state. -/
inductive OpaqueCall (H : Type) where
  | callConfirmed (shard : H) (callHash : Bytes) (stateHash : H)
  deriving DecidableEq, Repr

/-! ## §2. The world and the environment. -/

/-- What a header was used for (ghost). -/
inductive Event (H : Type) where
  /-- Storage proofs were checked against the header's state root. -/
  | provedStorage (header : Header H)
  /-- The `call_worker` extrinsics of the header's block were executed. -/
  | executedBlock (header : Header H)
  deriving DecidableEq, Repr

/-- The header an event used. -/
def Event.header {H : Type} : Event H → Header H
  | .provedStorage header => header
  | .executedBlock header => header

/-- What the enclave keeps between and during ECALLs. -/
structure World (H A : Type) where
  /-- `CHAIN_RELAY_DB`. -/
  sealedRelay : LightValidation H A
  /-- `SHARDS_PATH/<shard>/ENCRYPTED_STATE_FILE`; `none` when there is no file. -/
  shardFiles : H → Option Bytes
  /-- `AES_KEY_FILE_AND_INIT_V`: the sealed key followed by the IV. -/
  aesKeyIv : Bytes
  /-- Every `ocall_worker_request` so far, oldest first. -/
  requests : List (List (WorkerRequest H))
  /-- Ghost: the uses of headers, oldest first. -/
  trace : List (Event H)

/-- What the enclave calls outside this repository. -/
structure Env (H A Acc : Type) where
  S : Substrate H A
  C : Codec Acc H
  R : Runtime Acc H
  /-- `ocall_worker_request`: the host's answer to a request, given the earlier ones. -/
  host : List (List (WorkerRequest H)) → List (WorkerRequest H) →
    Except SgxStatus (List WorkerResponse)
  /-- `attestation::get_mrenclave_of_self`. -/
  mrenclave : Bytes
  /-- `rsa3072::unseal_pair` and `rsa3072::decrypt`. -/
  rsaDecrypt : Bytes → Except SgxStatus Bytes
  /-- `TrustedCallSigned::decode`. -/
  decodeTrustedCallSigned : Bytes → Option (TrustedCallSigned Acc H)
  /-- `UncheckedExtrinsicV4::<CallWorkerFn>::decode` of an opaque extrinsic's encoding. -/
  decodeCallWorker : Bytes → Option (CallWorkerXt H)
  /-- `Vec<ShardIdentifier>::decode`. -/
  decodeShards : Bytes → Option (List H)
  /-- `State::encode` and `State::decode`. -/
  encodeState : State → Bytes
  decodeState : Bytes → State
  /-- `rsgx_sha256_slice`. -/
  sha256 : Bytes → H
  /-- `blake2_256`. -/
  blake2_256 : Bytes → Bytes
  /-- AES-128 on one block: key, then block. -/
  aesEncryptBlock : Bytes → Bytes → Bytes
  /-- `compose_extrinsic_offline!(signer, call, nonce, .., genesis_hash, ..).encode()`. -/
  composeExtrinsic : OpaqueCall H → Nat → H → Bytes
  /-- `Vec<Vec<u8>>::encode` of the composed extrinsics. -/
  encodeExtrinsics : List Bytes → Bytes

/-! ## §3. The enclave monad. -/

/-- An enclave function: from the world, a result or a fault, and the world after it. -/
abbrev EnclaveM (H A : Type) := EStateM Fault (World H A)

section Monad

variable {H A α β : Type}

@[simp] theorem run_get (w : World H A) : (get : EnclaveM H A (World H A)) w = .ok w w := rfl

@[simp] theorem run_set (w w' : World H A) : (set w' : EnclaveM H A PUnit) w = .ok ⟨⟩ w' := rfl

@[simp] theorem run_modify (f : World H A → World H A) (w : World H A) :
    (modify f : EnclaveM H A PUnit) w = .ok ⟨⟩ (f w) := rfl

@[simp] theorem run_pure (a : α) (w : World H A) : (pure a : EnclaveM H A α) w = .ok a w := rfl

@[simp] theorem run_throw (e : Fault) (w : World H A) : (throw e : EnclaveM H A α) w = .error e w :=
  rfl

/-- Sequencing in the enclave monad: a fault stops the rest, keeping the world. -/
@[simp] theorem run_bind (x : EnclaveM H A α) (f : α → EnclaveM H A β) (w : World H A) :
    (x >>= f) w = match x w with
      | .ok a w' => f a w'
      | .error e w' => .error e w' := by
  show EStateM.bind x f w = _
  unfold EStateM.bind
  cases x w <;> rfl

/-- `Err(status)`. -/
def fail (s : SgxStatus) : EnclaveM H A α := throw (.status s)

/-- A panic. -/
def abort : EnclaveM H A α := throw .panic

/-- `SgxResult` into the monad (`?`). -/
def liftStatus : Except SgxStatus α → EnclaveM H A α
  | .ok a => pure a
  | .error s => fail s

/-- `.unwrap()` of an `Option`. -/
def unwrapOption : Option α → EnclaveM H A α
  | some a => pure a
  | none => abort

/-- `.unwrap()` of a `Result`. -/
def unwrapExcept {ε : Type} : Except ε α → EnclaveM H A α
  | .ok a => pure a
  | .error _ => abort

@[simp] theorem unwrapOption_some_bind (a : α) (f : α → EnclaveM H A β) :
    (unwrapOption (some a) >>= f) = f a := rfl

@[simp] theorem unwrapOption_none_bind (f : α → EnclaveM H A β) :
    (unwrapOption none >>= f) = abort := rfl

@[simp] theorem unwrapExcept_ok_bind {ε : Type} (a : α) (f : α → EnclaveM H A β) :
    (unwrapExcept (.ok a : Except ε α) >>= f) = f a := rfl

@[simp] theorem unwrapExcept_error_bind {ε : Type} (e : ε) (f : α → EnclaveM H A β) :
    (unwrapExcept (.error e : Except ε α) >>= f) = abort := rfl

theorem liftStatus_eq_ok {x : Except SgxStatus α} {a : α} {w w' : World H A}
    (h : liftStatus x w = .ok a w') : x = .ok a ∧ w' = w := by
  cases x with
  | ok b =>
    cases h
    exact ⟨rfl, rfl⟩
  | error s => cases h

/-- Append a ghost event. -/
def record (e : Event H) : EnclaveM H A Unit :=
  modify fun w => { w with trace := w.trace ++ [e] }

end Monad

/-! ## §4. Sealing and the ocall. -/

section Io

variable {H A Acc : Type}

/-- `io::light_validation::unseal`. -/
def unsealRelay : EnclaveM H A (LightValidation H A) := do
  return (← get).sealedRelay

/-- `io::light_validation::seal`. -/
def sealRelay (validator : LightValidation H A) : EnclaveM H A Unit :=
  modify fun w => { w with sealedRelay := validator }

/-- `worker_request(req)`: the ocall (an error status of either kind is returned). -/
def workerRequest (env : Env H A Acc) (req : List (WorkerRequest H)) :
    EnclaveM H A (List WorkerResponse) := do
  let w ← get
  set { w with requests := w.requests ++ [req] }
  liftStatus (env.host w.requests req)

/-- A `&mut self` relay call on the validator held in a local: its result and the validator
    after it; `none` (a panic of the relay) aborts. -/
def relayCall {α : Type} (c : Call H A α) : EnclaveM H A (Except Error α × LightValidation H A) :=
  unwrapOption c

end Io

end EncointerWorker.Enclave
