import EncointerWorker.Enclave.Persist
import EncointerWorker.Enclave.Phase

/-!
  EncointerWorker.Enclave.Guards — the ceremony schedule `Stf::execute` sees when it runs the
  calls of an imported block (`sync_chain_relay`, `update_states`, `handle_call_worker_xt`
  in `enclave/src/lib.rs`; `Stf::execute` in `stf/src/sgx.rs`).

  The phase guards of `execute` (`REGISTERING` for a registration, `ATTESTING` for
  attestations) read `CurrentPhase` from the shard's state, not from the chain.  They judge a
  call by its block's phase because of an order of steps: `sync_chain_relay` runs
  `update_states` for a block before it scans the block's extrinsics; `update_states` writes
  every listed shard with the chain's schedule at the block (`Enclave.Phase`);
  `handle_call_worker_xt` reloads the state that was written and syncs only the call's own
  keys, which are not the schedule's; and a call that succeeds writes back what the runtime
  dispatched, which leaves the schedule alone.

  Main results:
    * `handleCallWorkerXt_honest` — under an honest host, a decrypted, correctly signed call
      runs `execute` on the state its shard loads, with the call's keys synced.
    * `phaseSynced_handleCallWorkerXt`, `phaseSynced_scanBlockForRelevantXt` — the calls of a
      block keep every shard's schedule.
    * `execute_sees_block_schedule` — every `call_worker` call of an imported block, for a
      shard the chain lists, is executed on a state holding the block's `CurrentPhase` and
      `CurrentCeremonyIndex`.
-/

namespace EncointerWorker.Enclave

open EncointerWorker.Relay EncointerWorker.Stf EncointerWorker.Lib.AssocMap EncointerWorker.Lib

variable {H A Acc : Type} [DecidableEq H]

/-! ## §1. `handle_call_worker_xt` under an honest host. -/

section Handle

variable (env : Env H A Acc)

/-- The end of `handle_call_worker_xt`, once `Stf::execute` returned `r`: a panic aborts, an
    `Err` confirms nothing, a new state is written and confirmed. -/
def confirmExecuted (shard : H) (requestVec : Bytes) :
    Option (Except (StfError Acc) State) → EnclaveM H A (Option (OpaqueCall H))
  | none => abort
  | some (.error _) => pure none
  | some (.ok state) => do
    let stateHash ← stateWrite env state shard
    pure (some (.callConfirmed shard (env.blake2_256 requestVec) stateHash))

variable {env} {chain : Header H → Bytes → Option Bytes}

theorem ensureFile_ensureFile (w : World H A) (s : H) : (w.ensureFile s).ensureFile s = w.ensureFile s := by
  have h : ((w.ensureFile s).shardFiles s).isSome := by
    rw [ensureFile_shardFiles_self]
    rfl
  rw [World.ensureFile, if_pos h]

/-- Creating a shard's missing file does not change what it loads. -/
theorem loads_ensureFile {s : H} {st : State} {w : World H A} (h : Loads env s st w) :
    Loads env s st (w.ensureFile s) := by
  unfold Loads at h ⊢
  rw [ensureFile_ensureFile]
  exact h

theorem loads_unique {s : H} {st st' : State} {w : World H A} (h : Loads env s st w)
    (h' : Loads env s st' w) : st = st' := by
  unfold Loads at h h'
  rw [h] at h'
  injection h'

/-- Creating a missing file keeps every shard synced. -/
theorem phaseSynced_ensureFile {header : Header H} {s : H} {w : World H A}
    (h : PhaseSynced env chain header s w) (t : H) :
    PhaseSynced env chain header s (w.ensureFile t) := by
  by_cases hst : s = t
  · -- the shard whose file is created loads what it loaded
    subst hst
    obtain ⟨hkey, st, hload, hsched⟩ := h
    exact ⟨by rw [ensureFile_aesKeyIv]; exact hkey, st, loads_ensureFile hload, hsched⟩
  · exact phaseSynced_congr (ensureFile_shardFiles_ne w hst) (ensureFile_aesKeyIv w t) h

/-- **The spec of `handle_call_worker_xt` under an honest host**, for a request that decrypts
    to a correctly signed call: it runs `execute` on the state the shard loads, with the
    chain's values of the call's keys set, and ends as `confirmExecuted`, in a world that
    differs from the input only by the shard's created file and the logged request. -/
theorem handleCallWorkerXt_honest (hhost : HonestHost env chain) {xt : CallWorkerXt H}
    (header : Header H) {w : World H A} {requestVec : Bytes} {call : TrustedCallSigned Acc H}
    (hrsa : env.rsaDecrypt xt.request.cyphertext = .ok requestVec)
    (hcall : env.decodeTrustedCallSigned requestVec = some call)
    (hsig : call.verifySignature env.C env.mrenclave xt.request.shard = true) {st : State}
    (hload : Loads env xt.request.shard st w) :
    ∃ W : World H A, W.shardFiles = (w.ensureFile xt.request.shard).shardFiles ∧
      W.aesKeyIv = w.aesKeyIv ∧
      handleCallWorkerXt env xt header w = confirmExecuted env xt.request.shard requestVec
        (execute env.C env.R (updateStorage env.C env.R st
          (chainValues chain header (getStorageHashesToUpdate env.C call))) call) W := by
  obtain ⟨W, hreq, hfiles, hkeyW⟩ := requestVerified_honest env hhost
    (getStorageHashesToUpdate env.C call) header (w.ensureFile xt.request.shard)
  refine ⟨W, hfiles, hkeyW.trans (ensureFile_aesKeyIv _ _), ?_⟩
  simp only [handleCallWorkerXt, run_bind, hrsa, liftStatus, run_pure, hcall, hsig, Bool.not_true,
    Bool.false_eq_true, if_false, stateExists, run_get]
  -- the shard's file is loaded, or created and a fresh state taken: what the shard loads
  cases hfile : w.shardFiles xt.request.shard with
  | none =>
    have hens := ensureFile_of_none hfile
    have hfresh : Loads env xt.request.shard (initState env.C) w := loads_initState hfile
    have hst : st = initState env.C := loads_unique hload hfresh
    rw [hens] at hreq
    simp only [Option.isSome_none, Bool.false_eq_true, if_false, initShard, run_modify, run_bind,
      run_pure, hreq, hst]
    rfl
  | some bytes =>
    have hens := ensureFile_of_some hfile
    unfold Loads at hload
    rw [hens] at hreq hload
    simp only [Option.isSome_some, if_true, run_bind, hload, hreq]
    rfl

end Handle

/-! ## §2. The calls of a block keep every shard's schedule. -/

section Scan

variable {env : Env H A Acc} {chain : Header H → Bytes → Option Bytes}

/-- The end of a call keeps a synced shard synced: a failed or panicking `execute` writes
    nothing, and a successful one on this shard writes a state that holds the schedule. -/
theorem phaseSynced_confirmExecuted (hblock : BlockCipher env) (hcodec : StateCodec env)
    {header : Header H} {shard s : H} {requestVec : Bytes}
    {r : Option (Except (StfError Acc) State)} {W : World H A}
    (hsync : PhaseSynced env chain header s W)
    (hkeep : ∀ st', r = some (.ok st') → shard = s →
      ∀ k ∈ scheduleKeys env.C, get st' k = chain header k) :
    PhaseSynced env chain header s (resultState (confirmExecuted env shard requestVec r W)) := by
  rcases r with _ | _ | st'
  · exact hsync
  · exact hsync
  · simp only [confirmExecuted, run_bind, stateWrite_eq_ciphertext hsync.key, run_pure,
      resultState_ok]
    by_cases hs : shard = s
    · subst hs
      exact phaseSynced_write hblock hcodec hsync.key (hkeep st' rfl rfl)
    · exact phaseSynced_congr (setFile_shardFiles_ne W (Ne.symm hs) _) rfl hsync

omit [DecidableEq H] in
/-- The state a call is executed on keeps the loaded schedule, whatever header the call's own
    keys are read at: they are not the schedule's, and the hook leaves the schedule alone. -/
theorem get_callState_schedule (hp : PrefixesApart env.C)
    (hkeeps : ∀ k ∈ scheduleKeys env.C, env.R.Keeps k) (header : Header H) {header' : Header H}
    {st : State} (hsched : ∀ k ∈ scheduleKeys env.C, get st k = chain header' k)
    (call : TrustedCallSigned Acc H) :
    ∀ k ∈ scheduleKeys env.C, get (updateStorage env.C env.R st
      (chainValues chain header (getStorageHashesToUpdate env.C call))) k = chain header' k := by
  intro k hk
  rw [get_updateStorage_chainValues env (hkeeps k hk),
    if_neg (scheduleKey_not_mem_call hp call hk), hsched k hk]

variable (hhost : HonestHost env chain) (hp : PrefixesApart env.C)
  (hkeeps : ∀ k ∈ scheduleKeys env.C, env.R.Keeps k) (hblock : BlockCipher env)
  (hcodec : StateCodec env)
include hhost hp hkeeps hblock hcodec

/-- **The step lemma for calls**: every run of `handle_call_worker_xt`, for any shard and
    whatever it returns, keeps every synced shard synced.  A call rejected before its state
    is loaded leaves the world as it is; otherwise the call's keys are not the schedule's,
    and the runtime's dispatch leaves the schedule alone. -/
theorem phaseSynced_handleCallWorkerXt (xt : CallWorkerXt H) (header : Header H)
    {header' : Header H} (s : H) :
    Moves (Stable (PhaseSynced env chain header' s)) (handleCallWorkerXt env xt header) := by
  intro w hsync
  cases hrsa : env.rsaDecrypt xt.request.cyphertext with
  | error e =>
    -- the request does not decrypt
    have hrun : handleCallWorkerXt env xt header w = .error (.status e) w := by
      simp only [handleCallWorkerXt, run_bind, hrsa, liftStatus, fail, run_throw]
    rw [hrun]
    exact hsync
  | ok requestVec =>
    cases hcall : env.decodeTrustedCallSigned requestVec with
    | none =>
      -- "could not decode TrustedCallSigned"
      have hrun : handleCallWorkerXt env xt header w = .ok none w := by
        simp only [handleCallWorkerXt, run_bind, hrsa, liftStatus, run_pure, hcall]
      rw [hrun]
      exact hsync
    | some call =>
      cases hsig : call.verifySignature env.C env.mrenclave xt.request.shard with
      | false =>
        -- "TrustedCallSigned: bad signature"
        have hrun : handleCallWorkerXt env xt header w = .ok none w := by
          simp only [handleCallWorkerXt, run_bind, hrsa, liftStatus, run_pure, hcall, hsig,
            Bool.not_false, if_true]
        rw [hrun]
        exact hsync
      | true =>
        obtain ⟨st, hload⟩ := exists_loads hsync.key xt.request.shard
        obtain ⟨W, hfiles, hkeyW, hrun⟩ := handleCallWorkerXt_honest hhost header hrsa hcall hsig hload
        rw [hrun]
        -- before `execute`, the world holds the shard's files as the existence check left them
        have hsyncW : PhaseSynced env chain header' s W :=
          phaseSynced_congr (by rw [hfiles]) (hkeyW.trans (ensureFile_aesKeyIv w _).symm)
            (phaseSynced_ensureFile hsync xt.request.shard)
        refine phaseSynced_confirmExecuted hblock hcodec hsyncW ?_
        -- a call that succeeds on the synced shard wrote the schedule it was given
        rintro st' hexec rfl k hk
        obtain ⟨st₀, hload₀, hsched⟩ := hsync.synced
        have hst : st = st₀ := loads_unique hload hload₀
        rw [execute_keeps env.C env.R (hkeeps k hk) hexec, hst]
        exact get_callState_schedule hp hkeeps header hsched call k hk

/-- **The run lemma for a block's scan**: scanning a block, for any of its extrinsics and
    whatever happens, keeps every synced shard synced.  By the scan's frame rule, with
    `phaseSynced_handleCallWorkerXt` as the step. -/
theorem phaseSynced_scanBlockForRelevantXt (block : Block H) {header' : Header H} (s : H) :
    Moves (Stable (PhaseSynced env chain header' s)) (scanBlockForRelevantXt env block) :=
  moves_bind (moves_modify fun w hsync => phaseSynced_congr (w := w) rfl rfl hsync) fun _ =>
    moves_scanExtrinsics_of env block.header
      (fun xt => phaseSynced_handleCallWorkerXt hhost hp hkeeps hblock hcodec xt block.header s) _

end Scan

/-! ## §3. The block's schedule at every call. -/

section Block

variable {env : Env H A Acc} {chain : Header H → Bytes → Option Bytes}

/-- The scan of a list of extrinsics is the scan of its front, then of the rest. -/
theorem scanExtrinsics_append (header : Header H) (pre rest : List Bytes) :
    scanExtrinsics env header (pre ++ rest) = (do
      let c₁ ← scanExtrinsics env header pre
      let c₂ ← scanExtrinsics env header rest
      pure (c₁ ++ c₂)) := by
  induction pre with
  | nil => simp only [List.nil_append, scanExtrinsics, pure_bind, bind_pure]
  | cons xt pre ih =>
    simp only [List.cons_append, scanExtrinsics, ih]
    -- the head is handled, or not, the same way on both sides
    cases hd : env.decodeCallWorker xt with
    | none => simp only [bind_assoc, pure_bind, List.append_assoc]
    | some cxt =>
      by_cases hidx : cxt.callIndex = [SUBSRATEE_REGISTRY_MODULE, CALL_WORKER]
      · simp only [hidx, if_true, bind_assoc, pure_bind, List.append_assoc]
      · simp only [hidx, if_false, bind_assoc, pure_bind, List.append_assoc]

/-- A `call_worker` extrinsic is handled, its `Err` logged. -/
theorem scanExtrinsics_cons_call (header : Header H) {xtOpaque : Bytes} {xt : CallWorkerXt H}
    (hxt : env.decodeCallWorker xtOpaque = some xt)
    (hindex : xt.callIndex = [SUBSRATEE_REGISTRY_MODULE, CALL_WORKER]) (post : List Bytes) :
    scanExtrinsics env header (xtOpaque :: post) = (do
      let call ← catchStatus (handleCallWorkerXt env xt header) none
      let calls ← scanExtrinsics env header post
      pure (call.toList ++ calls)) := by
  rw [scanExtrinsics, hxt]
  simp only [hindex, if_true]

/-- **The STF judges each call by its block's schedule.**  Assume the host answers every
    storage request with exactly the requested keys and their proven values (`HonestHost`);
    that `twox_128` tells the synced pallets and items apart; that the runtime never writes the
    scheduler's keys; and that the state codec and AES are well formed.  Take a block that
    `sync_chain_relay` imports (`update_states` for its header returned, the step
    `syncBlocks_cons_ok` names) and a `call_worker` extrinsic of it whose shard the chain
    lists at the block.  The block's scan handles the extrinsic right after the extrinsics
    before it; and when it does, `Stf::execute` runs on a state whose `CurrentPhase` and
    `CurrentCeremonyIndex` are the chain's values at the block, so its phase guards read the
    block's phase. -/
theorem execute_sees_block_schedule (hhost : HonestHost env chain) (hp : PrefixesApart env.C)
    (hkeeps : ∀ k ∈ scheduleKeys env.C, env.R.Keeps k) (hblock : BlockCipher env)
    (hcodec : StateCodec env) {b : SignedBlock H} {w w₁ : World H A}
    (hkey : w.aesKeyIv.length = 32)
    (himport : mapStatus (updateStates env b.block.header) .errorUnexpected w = .ok () w₁)
    {bytes : Bytes} {shards : List H}
    (hlisted : chain b.block.header (shardsKeyHash env.C) = some bytes)
    (hdecode : env.decodeShards bytes = some shards)
    {pre post : List Bytes} {xtOpaque : Bytes} (hsplit : b.block.extrinsics = pre ++ xtOpaque :: post)
    {xt : CallWorkerXt H} (hxt : env.decodeCallWorker xtOpaque = some xt)
    (hindex : xt.callIndex = [SUBSRATEE_REGISTRY_MODULE, CALL_WORKER])
    (hs : xt.request.shard ∈ shards) {requestVec : Bytes} {call : TrustedCallSigned Acc H}
    (hrsa : env.rsaDecrypt xt.request.cyphertext = .ok requestVec)
    (hcall : env.decodeTrustedCallSigned requestVec = some call)
    (hsig : call.verifySignature env.C env.mrenclave xt.request.shard = true)
    {cs : List (OpaqueCall H)} {w₂ : World H A}
    (hpre : scanBlockForRelevantXt env { b.block with extrinsics := pre } w₁ = .ok cs w₂) :
    scanBlockForRelevantXt env b.block = (do
      let c₁ ← scanBlockForRelevantXt env { b.block with extrinsics := pre }
      let c ← catchStatus (handleCallWorkerXt env xt b.block.header) none
      let c₂ ← scanExtrinsics env b.block.header post
      pure (c₁ ++ (c.toList ++ c₂))) ∧
    ∃ (st : State) (W : World H A),
      (∀ k ∈ scheduleKeys env.C, get st k = chain b.block.header k) ∧
      currentPhase env.C st = (match chain b.block.header (currentPhaseKey env.C) with
        | some v => (CeremonyPhaseType.decode v).getD .registering
        | none => .registering) ∧
      handleCallWorkerXt env xt b.block.header w₂ =
        confirmExecuted env xt.request.shard requestVec (execute env.C env.R st call) W := by
  constructor
  · -- the block's scan: the extrinsics before `xt`, then `xt`, then the rest
    unfold scanBlockForRelevantXt
    rw [hsplit, scanExtrinsics_append, scanExtrinsics_cons_call b.block.header hxt hindex post]
    simp only [bind_assoc, pure_bind]
  -- `update_states` synced the shard, and the calls before `xt` kept it synced
  have hupdate : updateStates env b.block.header w = .ok () w₁ := mapStatus_eq_ok himport
  have hsync₁ : PhaseSynced env chain b.block.header xt.request.shard w₁ :=
    phaseSynced_updateStates hhost hp hkeeps hblock hcodec hkey hupdate hlisted hdecode hs
  have hsync₂ : PhaseSynced env chain b.block.header xt.request.shard w₂ := by
    have hscan : Stable (PhaseSynced env chain b.block.header xt.request.shard) w₁
        (resultState (scanBlockForRelevantXt env { b.block with extrinsics := pre } w₁)) :=
      phaseSynced_scanBlockForRelevantXt hhost hp hkeeps hblock hcodec _ xt.request.shard w₁
    rw [hpre] at hscan
    exact hscan hsync₁
  obtain ⟨st₀, hload, hsched⟩ := hsync₂.synced
  obtain ⟨W, -, -, hrun⟩ := handleCallWorkerXt_honest hhost b.block.header hrsa hcall hsig hload
  -- the state `execute` gets has the loaded schedule
  have hexec := get_callState_schedule hp hkeeps b.block.header hsched call
  have hphase : currentPhase env.C (updateStorage env.C env.R st₀
      (chainValues chain b.block.header (getStorageHashesToUpdate env.C call))) =
        (match chain b.block.header (currentPhaseKey env.C) with
          | some v => (CeremonyPhaseType.decode v).getD .registering
          | none => .registering) := by
    have hcp := hexec (currentPhaseKey env.C) (by simp [scheduleKeys])
    unfold currentPhase
    -- the two matches are separate definitions: compare them on each constructor
    cases hc : chain b.block.header (currentPhaseKey env.C) <;> rw [hcp, hc]
  exact ⟨_, W, hexec, hphase, hrun⟩

end Block

/-! ## §4. A registration in `ATTESTING`. -/

/-- A block at `toyHeaderAtZero` with one extrinsic. -/
def attestingBlock : SignedBlock Nat := ⟨⟨toyHeaderAtZero, [[7]]⟩, none⟩

/-- **A registration is judged by its block's phase**: the chain of `honestEnv` is in
    `ATTESTING` and lists shard `1`; after the import of `attestingBlock` into a fresh
    enclave, the registration its extrinsic carries is executed on a state in `ATTESTING`,
    whose `REGISTERING` guard rejects it. -/
theorem registration_sees_attesting :
    ∃ w₁ w₂ : World Nat Nat,
      mapStatus (updateStates honestEnv attestingBlock.block.header) .errorUnexpected toyWorld =
        .ok () w₁ ∧
      scanBlockForRelevantXt honestEnv { attestingBlock.block with extrinsics := [] } w₁ =
        .ok [] w₂ ∧
      ∃ (st : State) (W : World Nat Nat), currentPhase honestEnv.C st = .attesting ∧
        handleCallWorkerXt honestEnv ⟨[SUBSRATEE_REGISTRY_MODULE, CALL_WORKER], ⟨1, []⟩⟩
            attestingBlock.block.header w₂ =
          confirmExecuted honestEnv 1 [] (execute honestEnv.C honestEnv.R st registerCall) W := by
  have hkey : toyWorld.aesKeyIv.length = 32 := rfl
  have hblock : BlockCipher honestEnv := toyEnv_blockCipher
  obtain ⟨w₁, hupdate⟩ := updateStates_honest_ok honestEnv_honest attestingBlock.block.header hkey
    phaseValue_shards (show honestEnv.decodeShards [1] = some [1] from rfl)
  have himport : mapStatus (updateStates honestEnv attestingBlock.block.header) .errorUnexpected
      toyWorld = .ok () w₁ := by
    simp only [mapStatus, hupdate]
  refine ⟨w₁, _, himport, rfl, ?_⟩
  obtain ⟨-, st, W, -, hphase, hrun⟩ := execute_sees_block_schedule honestEnv_honest
    scheduleCodec_prefixesApart (fun k _ => toyRuntime_keeps k) hblock honestEnv_stateCodec hkey
    himport phaseValue_shards rfl
    (show attestingBlock.block.extrinsics = [] ++ [7] :: [] from rfl) rfl rfl
    (List.mem_singleton_self 1) rfl rfl rfl rfl
  have hcp : scheduleChain attestingBlock.block.header (currentPhaseKey honestEnv.C) =
      some CeremonyPhaseType.attesting.encode := phaseValue_currentPhase
  refine ⟨st, W, ?_, hrun⟩
  rw [hphase, hcp]
  rfl

end EncointerWorker.Enclave
