import EncointerWorker.Lib.Moves
import EncointerWorker.Lib.Transition
import EncointerWorker.Enclave.Sync

/-!
  EncointerWorker.Enclave.Disk — the ECALLs that read or write the sealed light client
  (`init_chain_relay`, `sync_chain_relay`, `get_state` in `enclave/src/lib.rs`;
  `io::light_validation` in `enclave/src/io.rs`), on the enclave's disk.

  `World.sealedRelay` is what `CHAIN_RELAY_DB` holds once the file exists.  Whether it exists
  is what `read_or_init_validator` asks first (`SgxFile::open(CHAIN_RELAY_DB).is_err()`) and
  what makes `io::light_validation::unseal()` fail in `sync_chain_relay` and `get_state`; a
  `Disk` is the world together with that fact.  The file comes to exist when
  `init_validator` seals, and nothing in the model removes it.

  `init_chain_relay` decodes its three arguments (the model takes them decoded, `none` being
  a decoding error), then runs `read_or_init_validator`.  With no file, or with a sealed light
  client whose genesis hash is not the given header's, `init_validator` starts a fresh light
  client at the header, with the given authority set, and seals it; otherwise the sealed
  head is returned and nothing is written.

  A run of the enclave (§4) is a sequence of these three ECALLs with any arguments; each ends
  with `Ok`, `Err` or a panic, and the run goes on from the disk it left.

  Spec lemmas:
    * `initValidator_eq` — a bad authority proof fails in place; otherwise `freshValidator` is
      sealed and its head, the header, returned.
    * `readOrInitValidator_of_missing`, `readOrInitValidator_of_found` — the two branches;
      `readOrInitValidator_of_genesis` — the second with a genesis hash to read.
    * `initChainRelay_state` — the ECALL leaves the disk as it was, or a fresh light client
      sealed.
-/

namespace EncointerWorker.Enclave

open EncointerWorker.Relay EncointerWorker.Stf EncointerWorker.Lib

variable {H A Acc : Type}

/-! ## §1. The disk and its monad. -/

/-- The world, and whether the sealed file `CHAIN_RELAY_DB` exists. -/
structure Disk (H A : Type) where
  world : World H A
  relayDb : Bool

/-- An ECALL's code on the disk. -/
abbrev DiskM (H A : Type) := EStateM Fault (Disk H A)

section Monad

variable {α : Type}

/-- Code of the world, run on the disk's world. -/
def onWorld (x : EnclaveM H A α) : DiskM H A α := fun d =>
  match x d.world with
  | .ok a w => .ok a { d with world := w }
  | .error e w => .error e { d with world := w }

@[simp] theorem onWorld_pure (a : α) (d : Disk H A) :
    onWorld (pure a : EnclaveM H A α) d = .ok a d := rfl

@[simp] theorem diskM_get (d : Disk H A) : (get : DiskM H A (Disk H A)) d = .ok d d := rfl

@[simp] theorem onWorld_unsealRelay (d : Disk H A) :
    onWorld unsealRelay d = .ok d.world.sealedRelay d := rfl

@[simp] theorem onWorld_unwrapOption (o : Option α) (d : Disk H A) :
    onWorld (unwrapOption o) d = match o with
      | some a => .ok a d
      | none => .error .panic d := by
  cases o <;> rfl

@[simp] theorem onWorld_unwrapExcept {ε : Type} (x : Except ε α) (d : Disk H A) :
    onWorld (unwrapExcept x) d = match x with
      | .ok a => .ok a d
      | .error _ => .error .panic d := by
  cases x <;> rfl

@[simp] theorem resultState_onWorld (x : EnclaveM H A α) (d : Disk H A) :
    resultState (onWorld x d) = { d with world := resultState (x d.world) } := by
  unfold onWorld
  cases x d.world <;> rfl

/-- `io::seal(validator.encode(), CHAIN_RELAY_DB)`: the file written, and so existing. -/
def sealRelayDb (validator : LightValidation H A) : DiskM H A Unit := do
  onWorld (sealRelay validator)
  modify fun d => { d with relayDb := true }

/-- `.sgx_error()` on a `Result` (`UnwrapOrSgxErrorUnexpected`): every `Err` becomes
    `SGX_ERROR_UNEXPECTED`. -/
def sgxErrorResult {ε : Type} : Except ε α → Except SgxStatus α
  | .ok a => .ok a
  | .error _ => .error .errorUnexpected

end Monad

/-! ## §2. `init_chain_relay`. -/

section InitChainRelay

variable [DecidableEq H] (env : Env H A Acc)

/-- `io::light_validation::init_validator(header, auth, proof)`. -/
def initValidator (header : Header H) (auth : AuthorityList A) (proof : StorageProof) :
    DiskM H A (Header H) := do
  let validator : LightValidation H A := LightValidation.new
  let (r, validator) ← onWorld (relayCall (initializeRelay env.S validator header auth proof))
  let _ ← onWorld (liftStatus (sgxErrorResult r))
  sealRelayDb validator
  onWorld (unwrapExcept (latestHeader validator validator.numRelays))

/-- `io::light_validation::read_or_init_validator(header, auth, proof)`. -/
def readOrInitValidator (header : Header H) (auth : AuthorityList A) (proof : StorageProof) :
    DiskM H A (Header H) := do
  if !(← get).relayDb then
    -- "ChainRelay DB not found, creating new!"
    initValidator env header auth proof
  else
    let validator ← onWorld unsealRelay
    let genesis ← onWorld (unwrapOption (genesisHash validator validator.numRelays))
    let genesis ← onWorld (unwrapExcept genesis)
    if genesis = env.S.hash header then
      -- "Found already initialized chain relay"
      onWorld (unwrapExcept (latestHeader validator validator.numRelays))
    else initValidator env header auth proof

/-- **The ECALL `init_chain_relay(genesis_header, authority_list, authority_proof,
    latest_header)`**: its arguments as decoded (`none` when decoding fails), and the buffer
    it fills with the encoded head. -/
def initChainRelay (header : Option (Header H)) (auth : Option (AuthorityList A))
    (proof : Option StorageProof) (latestHeaderLen : Nat) (encodeHeader : Header H → Bytes) :
    DiskM H A Bytes :=
  match header, auth, proof with
  | some header, some auth, some proof => do
    let header ← readOrInitValidator env header auth proof
    onWorld (writeSliceAndWhitespacePad latestHeaderLen (encodeHeader header))
  -- "Decoding Header failed", "Decoding VersionedAuthorityList failed"
  | _, _, _ => throw (.status .errorUnexpected)

end InitChainRelay

/-! ## §3. What the spec lemmas say `init_validator` seals. -/

/-- `LightValidation::new()` after `initialize_relay(header, auth, _)`: relay `1`, started at
    `header` with the set `auth`. -/
def freshValidator (S : Substrate H A) (header : Header H) (auth : AuthorityList A) :
    LightValidation H A :=
  { (LightValidation.new : LightValidation H A).setRelay 1 (RelayState.new S.hash header auth) with
    numRelays := 1 }

/-- `initialize_relay` on `LightValidation::new()`, with an authority proof that checks. -/
theorem initializeRelay_new_eq (S : Substrate H A) {header : Header H} {auth : AuthorityList A}
    {proof : StorageProof} (hcheck : checkValidatorSetProof S header.stateRoot proof auth = .ok ()) :
    initializeRelay S LightValidation.new header auth proof = some (.ok 1, freshValidator S header auth) := by
  simp only [Relay.initializeRelay, hcheck]
  rfl

section Spec

variable [DecidableEq H] (env : Env H A Acc) (header : Header H) (auth : AuthorityList A)
  (proof : StorageProof) (d : Disk H A)

omit [DecidableEq H] in
/-- **What `init_validator` does**: a bad authority proof fails in place; otherwise it seals
    the fresh light client, so the file exists, and returns its head, the header. -/
theorem initValidator_eq :
    initValidator env header auth proof d =
      match checkValidatorSetProof env.S header.stateRoot proof auth with
      | .error _ => .error (.status .errorUnexpected) d
      | .ok () => .ok header ⟨{ d.world with sealedRelay := freshValidator env.S header auth }, true⟩ := by
  unfold initValidator
  cases h : checkValidatorSetProof env.S header.stateRoot proof auth with
  | error e =>
    simp only [Relay.initializeRelay, h]
    rfl
  | ok u =>
    rw [initializeRelay_new_eq env.S h]
    rfl

theorem readOrInitValidator_of_missing (hdb : d.relayDb = false) :
    readOrInitValidator env header auth proof d = initValidator env header auth proof d := by
  simp only [readOrInitValidator, run_bind_eq, diskM_get, hdb]
  rfl

/-- **With the file there**: the sealed head when the sealed genesis is the header's hash, a
    fresh light client when it is another; a relay with no genesis hash or no head panics. -/
theorem readOrInitValidator_of_found (hdb : d.relayDb = true) :
    readOrInitValidator env header auth proof d =
      match genesisHash d.world.sealedRelay d.world.sealedRelay.numRelays with
      | some (.ok genesis) =>
        if genesis = env.S.hash header then
          match latestHeader d.world.sealedRelay d.world.sealedRelay.numRelays with
          | .ok head => .ok head d
          | .error _ => .error .panic d
        else initValidator env header auth proof d
      -- `header_hashes[0]` of an empty vector, or `.unwrap()` of an `Err`
      | _ => .error .panic d := by
  simp only [readOrInitValidator, run_bind_eq, diskM_get, hdb, Bool.not_true, Bool.false_eq_true,
    if_false, onWorld_unsealRelay, onWorld_unwrapOption]
  cases genesisHash d.world.sealedRelay d.world.sealedRelay.numRelays with
  | none => rfl
  | some x =>
    cases x with
    | error e => rfl
    | ok genesis =>
      simp only [onWorld_unwrapExcept]
      split
      · cases latestHeader d.world.sealedRelay d.world.sealedRelay.numRelays <;> rfl
      · rfl

/-- With a genesis hash to read: the sealed head, or a fresh light client. -/
theorem readOrInitValidator_of_genesis (hdb : d.relayDb = true) {genesis : H}
    (hgenesis : genesisHash d.world.sealedRelay d.world.sealedRelay.numRelays =
      some (.ok genesis)) :
    readOrInitValidator env header auth proof d =
      if genesis = env.S.hash header then
        match latestHeader d.world.sealedRelay d.world.sealedRelay.numRelays with
        | .ok head => .ok head d
        | .error _ => .error .panic d
      else initValidator env header auth proof d := by
  rw [readOrInitValidator_of_found env header auth proof d hdb, hgenesis]

/-- `read_or_init_validator` leaves the disk as it was, or the fresh light client sealed. -/
theorem readOrInitValidator_state :
    resultState (readOrInitValidator env header auth proof d) = d ∨
      checkValidatorSetProof env.S header.stateRoot proof auth = .ok () ∧
        resultState (readOrInitValidator env header auth proof d) =
          ⟨{ d.world with sealedRelay := freshValidator env.S header auth }, true⟩ := by
  have hinit : resultState (initValidator env header auth proof d) = d ∨
      checkValidatorSetProof env.S header.stateRoot proof auth = .ok () ∧
        resultState (initValidator env header auth proof d) =
          ⟨{ d.world with sealedRelay := freshValidator env.S header auth }, true⟩ := by
    rw [initValidator_eq]
    cases checkValidatorSetProof env.S header.stateRoot proof auth with
    | error e => exact .inl rfl
    | ok u => exact .inr ⟨rfl, rfl⟩
  cases hdb : d.relayDb with
  | false =>
    rw [readOrInitValidator_of_missing env header auth proof d hdb]
    exact hinit
  | true =>
    rw [readOrInitValidator_of_found env header auth proof d hdb]
    -- every branch but `init_validator` ends where it started
    split
    · split
      · left
        split <;> rfl
      · exact hinit
    · exact .inl rfl

theorem initChainRelay_decoded (latestHeaderLen : Nat) (encodeHeader : Header H → Bytes) :
    initChainRelay env (some header) (some auth) (some proof) latestHeaderLen encodeHeader d =
      (readOrInitValidator env header auth proof >>= fun head =>
        onWorld (writeSliceAndWhitespacePad latestHeaderLen (encodeHeader head))) d := rfl

omit [DecidableEq H] in
/-- Writing the head out leaves the world. -/
theorem resultState_writeSliceAndWhitespacePad (len : Nat) (data : Bytes) (w : World H A) :
    resultState (writeSliceAndWhitespacePad len data w) = w := by
  unfold writeSliceAndWhitespacePad
  split <;> rfl

end Spec

section State

variable [DecidableEq H] (env : Env H A Acc) (d : Disk H A)

/-- **What `init_chain_relay` leaves on the disk**: the disk as it was, or a fresh light client
    sealed for a header whose authority proof checks. -/
theorem initChainRelay_state (header : Option (Header H)) (auth : Option (AuthorityList A))
    (proof : Option StorageProof) (latestHeaderLen : Nat) (encodeHeader : Header H → Bytes) :
    resultState (initChainRelay env header auth proof latestHeaderLen encodeHeader d) = d ∨
      ∃ h vs p, checkValidatorSetProof env.S h.stateRoot p vs = .ok () ∧
        resultState (initChainRelay env header auth proof latestHeaderLen encodeHeader d) =
          ⟨{ d.world with sealedRelay := freshValidator env.S h vs }, true⟩ := by
  -- a decoding error returns before anything is read
  cases header with
  | none => exact .inl rfl
  | some header =>
    cases auth with
    | none => exact .inl rfl
    | some auth =>
      cases proof with
      | none => exact .inl rfl
      | some proof =>
        have hbind : resultState (initChainRelay env (some header) (some auth) (some proof)
            latestHeaderLen encodeHeader d) =
            resultState (readOrInitValidator env header auth proof d) := by
          rw [initChainRelay_decoded, run_bind_eq]
          cases readOrInitValidator env header auth proof d with
          | ok head d' =>
            rw [resultState_onWorld, resultState_writeSliceAndWhitespacePad]
            rfl
          | error e d' => rfl
        rw [hbind]
        rcases readOrInitValidator_state env header auth proof d with h | ⟨hcheck, h⟩
        · exact .inl h
        · exact .inr ⟨header, auth, proof, hcheck, h⟩

end State

/-! ## §4. Runs of ECALLs. -/

section Run

variable [DecidableEq H] (env : Env H A Acc)

/-- `get_state` when `io::light_validation::unseal()` finds no file: what runs before it,
    then its `Err`. -/
def getStateWithoutRelayDb (getter : Getter Acc H) (shard : H) : EnclaveM H A Bytes := do
  if let .trusted g := getter then
    -- "bad signature"
    if !(g.verifySignature env.C) then fail .errorUnexpected
  if !(← stateExists shard) then initShard shard
  let _ ← stateLoad env shard
  fail .errorUnexpected

/-- An ECALL on the sealed light client, with its arguments. -/
inductive Ecall (H A Acc : Type) where
  | initChainRelay (header : Option (Header H)) (auth : Option (AuthorityList A))
      (proof : Option StorageProof) (latestHeaderLen : Nat) (encodeHeader : Header H → Bytes)
  | syncChainRelay (blocks : List (SignedBlock H)) (nonce extrinsicsSliceLen : Nat)
  | getState (getter : Getter Acc H) (shard : H) (valueLen : Nat)
      (encodeValue : Option Bytes → Bytes)

/-- The ECALL's code on the disk.  Without the file, `sync_chain_relay` fails at `unseal`
    before anything else, `get_state` after its checks. -/
def Ecall.run : Ecall H A Acc → DiskM H A Bytes
  | .initChainRelay header auth proof latestHeaderLen encodeHeader =>
    Enclave.initChainRelay env header auth proof latestHeaderLen encodeHeader
  | .syncChainRelay blocks nonce extrinsicsSliceLen => do
    if !(← get).relayDb then throw (.status .errorUnexpected)
    onWorld (Enclave.syncChainRelay env blocks nonce extrinsicsSliceLen)
  | .getState getter shard valueLen encodeValue => do
    if !(← get).relayDb then onWorld (getStateWithoutRelayDb env getter shard)
    else onWorld (getStateEcall env getter shard valueLen encodeValue)

section RunLemmas

variable {env} (d : Disk H A)

theorem run_syncChainRelay_of_missing (hdb : d.relayDb = false) (blocks : List (SignedBlock H))
    (nonce extrinsicsSliceLen : Nat) :
    (Ecall.syncChainRelay blocks nonce extrinsicsSliceLen : Ecall H A Acc).run env d =
      .error (.status .errorUnexpected) d := by
  simp only [Ecall.run, run_bind_eq, diskM_get, hdb]
  rfl

theorem run_syncChainRelay_of_found (hdb : d.relayDb = true) (blocks : List (SignedBlock H))
    (nonce extrinsicsSliceLen : Nat) :
    (Ecall.syncChainRelay blocks nonce extrinsicsSliceLen : Ecall H A Acc).run env d =
      onWorld (syncChainRelay env blocks nonce extrinsicsSliceLen) d := by
  simp only [Ecall.run, run_bind_eq, diskM_get, hdb]
  rfl

theorem run_getState (getter : Getter Acc H) (shard : H) (valueLen : Nat)
    (encodeValue : Option Bytes → Bytes) :
    (Ecall.getState getter shard valueLen encodeValue).run env d =
      if d.relayDb then onWorld (getStateEcall env getter shard valueLen encodeValue) d
      else onWorld (getStateWithoutRelayDb env getter shard) d := by
  simp only [Ecall.run, run_bind_eq, diskM_get]
  cases d.relayDb <;> rfl

end RunLemmas

/-- One ECALL, ended whichever way. -/
def EcallStep (d d' : Disk H A) : Prop :=
  ∃ e : Ecall H A Acc, resultState (e.run env d) = d'

/-- The disks a run of ECALLs reaches from a fresh enclave: no `CHAIN_RELAY_DB`, any world. -/
def DiskReachable : Disk H A → Prop :=
  Reach (fun d => d.relayDb = false) (EcallStep env)

end Run

end EncointerWorker.Enclave
