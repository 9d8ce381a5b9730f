import Mathlib.Data.List.Forall2
import EncointerWorker.Enclave.Persist

/-!
  EncointerWorker.Enclave.Calls — the trusted calls the enclave executes and confirms
  (`handle_call_worker_xt`, `scan_block_for_relevant_xt` in `enclave/src/lib.rs`).

  A `call_worker` extrinsic of an imported block carries an encrypted `TrustedCallSigned`
  and a shard.  The enclave decrypts it, checks its signature (over call, nonce, MRENCLAVE
  and shard), executes it on the shard's state and pushes a `CALL_CONFIRMED` with the hash
  of the decrypted request.  Two things are not checked: the nonce against any stored
  counter, and the call's currency against the shard.

  `Backs` states what the handler did for one confirmation, in the world it ran from;
  `ScanBacked` and `LoopBacked` thread those worlds through a block's scan and the block loop,
  as the code runs them.

  Main results:
    * `handleCallWorkerXt_some` — a confirmation comes from a decrypted, correctly signed
      call that executed on the shard's loaded and synced state.
    * `scanExtrinsics_backed`, `syncBlocks_loopBacked` — a returning scan and a returning
      block loop are backed in the worlds they pass through.
    * `confirmations_backed_by_extrinsics` — the confirmations of a returning block loop are
      backed, in the worlds the loop passes through, by occurrences of extrinsics of the
      batch, matched one to one and in order.
    * `replayed_call_confirmed_twice` — the same signed transfer in two blocks is executed and
      confirmed twice, moving the sender's whole balance.
    * `foreign_currency_call_executed` — a registration for currency `2` is executed on
      shard `1`.
-/

namespace EncointerWorker.Enclave

open EncointerWorker.Relay EncointerWorker.Stf EncointerWorker.Lib EncointerWorker.Lib.AssocMap

variable {H A Acc : Type}

/-! ## §1. `handle_call_worker_xt` and the scan. -/

section Handle

variable [DecidableEq H] (env : Env H A Acc)

/-- The end of `handle_call_worker_xt`, from the sync of the loaded state on: a confirmation
    comes from verified answers, a successful `execute` on the synced state, and the write of
    its result to the shard's file. -/
theorem handleCallWorkerXt_tail_some {call : TrustedCallSigned Acc H} {st : State} {shard : H}
    {header : Header H} {requestVec : Bytes} {w w' : World H A} {c : OpaqueCall H}
    (h : (do
      let updateMap ← requestVerified env (getStorageHashesToUpdate env.C call) header
      let state := updateStorage env.C env.R st updateMap
      match execute env.C env.R state call with
      | none => abort
      | some (.error _) => pure none
      | some (.ok state) => do
        let stateHash ← stateWrite env state shard
        pure (some (.callConfirmed shard (env.blake2_256 requestVec) stateHash)) :
        EnclaveM H A (Option (OpaqueCall H))) w = .ok (some c) w') :
    ∃ updateMap w₁ st' stateHash,
      requestVerified env (getStorageHashesToUpdate env.C call) header w = .ok updateMap w₁ ∧
      execute env.C env.R (updateStorage env.C env.R st updateMap) call = some (.ok st') ∧
      stateWrite env st' shard w₁ = .ok stateHash w' ∧
      c = .callConfirmed shard (env.blake2_256 requestVec) stateHash := by
  obtain ⟨updateMap, w₁, hsync, h⟩ := bind_eq_ok h
  dsimp only at h
  -- `execute`'s verdict: no result aborts, an error confirms nothing
  generalize hexec : execute env.C env.R (updateStorage env.C env.R st updateMap) call = r at h
  rcases r with _ | _ | st'
  · cases h
  · cases h
  · obtain ⟨stateHash, w₂, hwrite, h⟩ := bind_eq_ok h
    cases h
    exact ⟨updateMap, w₁, st', stateHash, hsync, hexec, hwrite, rfl⟩

omit [DecidableEq H] in
theorem stateExists_run (shard : H) (w : World H A) :
    stateExists shard w = .ok (w.shardFiles shard).isSome w := rfl

/-- **What `handle_call_worker_xt` did when it confirmed.**  The request decrypted to a call
    signed for the shard; the shard's state was loaded from its file, or initialised for a
    shard without one; the storage the call needs was synced into it from the host's verified
    answers; `execute` succeeded on the result; and the new state was written to the shard's
    file, whose hash the confirmation carries with the request's. -/
theorem handleCallWorkerXt_some {xt : CallWorkerXt H} {header : Header H} {w w' : World H A}
    {c : OpaqueCall H} (h : handleCallWorkerXt env xt header w = .ok (some c) w') :
    ∃ requestVec call st w₁ updateMap w₂ st' stateHash,
      env.rsaDecrypt xt.request.cyphertext = .ok requestVec ∧
      env.decodeTrustedCallSigned requestVec = some call ∧
      call.verifySignature env.C env.mrenclave xt.request.shard = true ∧
      (if (w.shardFiles xt.request.shard).isSome then stateLoad env xt.request.shard
        else do initShard xt.request.shard; pure (initState env.C)) w = .ok st w₁ ∧
      requestVerified env (getStorageHashesToUpdate env.C call) header w₁ = .ok updateMap w₂ ∧
      execute env.C env.R (updateStorage env.C env.R st updateMap) call = some (.ok st') ∧
      stateWrite env st' xt.request.shard w₂ = .ok stateHash w' ∧
      c = .callConfirmed xt.request.shard (env.blake2_256 requestVec) stateHash := by
  unfold handleCallWorkerXt at h
  obtain ⟨requestVec, w₀, hdec, h⟩ := bind_eq_ok h
  obtain ⟨hrsa, hw₀⟩ := liftStatus_eq_ok hdec
  rw [hw₀] at h
  cases hcall : env.decodeTrustedCallSigned requestVec with
  | none =>
    -- "could not decode TrustedCallSigned": no confirmation
    rw [hcall] at h
    cases h
  | some call =>
    rw [hcall] at h
    dsimp only at h
    split at h
    · -- "TrustedCallSigned: bad signature": no confirmation
      cases h
    rename_i hsig
    have hsig : call.verifySignature env.C env.mrenclave xt.request.shard = true := by
      simpa using hsig
    -- the file is looked up in place, then loaded or initialised; each branch then syncs
    obtain ⟨b, w₀, hexists, h⟩ := bind_eq_ok h
    rw [stateExists_run] at hexists
    cases hexists
    split at h
    · rename_i hfile
      obtain ⟨st, w₁, hload, h⟩ := bind_eq_ok h
      obtain ⟨updateMap, w₂, st', stateHash, htail⟩ := handleCallWorkerXt_tail_some env h
      refine ⟨requestVec, call, st, w₁, updateMap, w₂, st', stateHash, hrsa, hcall, hsig, ?_,
        htail⟩
      rw [if_pos hfile]
      exact hload
    · rename_i hfile
      obtain ⟨u, w₀, hinit, h⟩ := bind_eq_ok h
      obtain ⟨st, w₁, hinitState, h⟩ := bind_eq_ok h
      obtain ⟨updateMap, w₂, st', stateHash, htail⟩ := handleCallWorkerXt_tail_some env h
      refine ⟨requestVec, call, st, w₁, updateMap, w₂, st', stateHash, hrsa, hcall, hsig, ?_,
        htail⟩
      rw [if_neg hfile, run_bind_eq, hinit]
      exact hinitState

/-- `c` confirms the extrinsic `xt` of the block with `header`, handled from the world `w`
    into `w'`: `xt` decodes as a `call_worker` call whose request decrypts to a signed call
    that verifies for the request's shard; the shard's state was loaded from its file in `w`
    (`init_state` for a shard without one), the storage the call needs was synced into it
    from the host's verified answers, `execute` succeeded on that state, and the result was
    written to the shard's file; `c` names the shard, the hash of the decrypted request and
    the hash of the file written. -/
def Backs (header : Header H) (w : World H A) (xt : Bytes) (c : OpaqueCall H) (w' : World H A) :
    Prop :=
  ∃ cw requestVec call st w₁ updateMap w₂ st' stateHash,
    env.decodeCallWorker xt = some cw ∧
    cw.callIndex = [SUBSRATEE_REGISTRY_MODULE, CALL_WORKER] ∧
    env.rsaDecrypt cw.request.cyphertext = .ok requestVec ∧
    env.decodeTrustedCallSigned requestVec = some call ∧
    call.verifySignature env.C env.mrenclave cw.request.shard = true ∧
    (if (w.shardFiles cw.request.shard).isSome then stateLoad env cw.request.shard
      else do initShard cw.request.shard; pure (initState env.C)) w = .ok st w₁ ∧
    requestVerified env (getStorageHashesToUpdate env.C call) header w₁ = .ok updateMap w₂ ∧
    execute env.C env.R (updateStorage env.C env.R st updateMap) call = some (.ok st') ∧
    stateWrite env st' cw.request.shard w₂ = .ok stateHash w' ∧
    c = .callConfirmed cw.request.shard (env.blake2_256 requestVec) stateHash

/-- The scan of `xts` in the block with `header`, from `w` to `w'`, confirms `cs`: each
    extrinsic in turn, from the world the ones before it left, either confirms nothing (the
    scan of it alone returns no call) or confirms one call that it `Backs`. -/
inductive ScanBacked (header : Header H) :
    World H A → List Bytes → List (OpaqueCall H) → World H A → Prop
  | nil (w : World H A) : ScanBacked header w [] [] w
  | skip {w w₁ w' : World H A} {xt : Bytes} {xts : List Bytes} {cs : List (OpaqueCall H)} :
      scanExtrinsics env header [xt] w = .ok [] w₁ → ScanBacked header w₁ xts cs w' →
      ScanBacked header w (xt :: xts) cs w'
  | confirm {w w₁ w' : World H A} {xt : Bytes} {xts : List Bytes} {c : OpaqueCall H}
      {cs : List (OpaqueCall H)} :
      Backs env header w xt c w₁ → ScanBacked header w₁ xts cs w' →
      ScanBacked header w (xt :: xts) (c :: cs) w'

/-- **A returning scan is backed**, extrinsic by extrinsic: by induction on the extrinsics,
    each handled in the world the ones before it left. -/
theorem scanExtrinsics_backed (header : Header H) (xts : List Bytes) :
    ∀ w cs w', scanExtrinsics env header xts w = .ok cs w' → ScanBacked env header w xts cs w' := by
  induction xts with
  | nil =>
    intro w cs w' h
    cases h
    exact .nil w
  | cons xt xts ih =>
    intro w cs w' h
    -- the extrinsic's own call, if any, then the scan of the rest from where it left
    have hstep : ∀ (call : Option (OpaqueCall H)) w₁,
        scanExtrinsics env header [xt] w = .ok call.toList w₁ →
        (∀ c ∈ call, Backs env header w xt c w₁) →
        (do
          let calls ← scanExtrinsics env header xts
          pure (call.toList ++ calls) : EnclaveM H A (List (OpaqueCall H))) w₁ = .ok cs w' →
        ScanBacked env header w (xt :: xts) cs w' := by
      intro call w₁ hone hcall h
      obtain ⟨rest, w₂, hrest, h⟩ := bind_eq_ok h
      cases h
      cases call with
      | none => exact .skip hone (ih w₁ rest w' hrest)
      | some c => exact .confirm (hcall c rfl) (ih w₁ rest w' hrest)
    rw [scanExtrinsics] at h
    -- only a decodable `call_worker` extrinsic reaches `handle_call_worker_xt`
    cases hdec : env.decodeCallWorker xt with
    | none =>
      rw [hdec] at h
      exact hstep none w (by rw [scanExtrinsics, hdec]; rfl) (by simp) h
    | some cw =>
      rw [hdec] at h
      dsimp only at h
      split at h
      · rename_i hidx
        obtain ⟨call, w₁, hcall, h⟩ := bind_eq_ok h
        refine hstep call w₁ ?_ (fun c hc => ?_) h
        · rw [scanExtrinsics, hdec]
          simp only [hidx, if_true]
          rw [run_bind_eq, hcall]
          dsimp only
          rw [scanExtrinsics, pure_bind, List.append_nil]
          rfl
        · cases hc
          rcases catchStatus_eq_ok hcall with hx | ⟨habs, -⟩
          · obtain ⟨requestVec, call, st, w₃, updateMap, w₄, st', stateHash, hrsa, hts, hsig,
              hload, hsync, hexec, hwrite, hc⟩ := handleCallWorkerXt_some env hx
            exact ⟨cw, requestVec, call, st, w₃, updateMap, w₄, st', stateHash, hdec, hidx, hrsa,
              hts, hsig, hload, hsync, hexec, hwrite, hc⟩
          · cases habs
      · rename_i hidx
        refine hstep none w ?_ (by simp) h
        rw [scanExtrinsics, hdec]
        simp only [hidx, if_false]
        rfl

/-- A backed scan confirms a sublist of its extrinsics, one to one and in order. -/
theorem ScanBacked.sublist {header : Header H} {w w' : World H A} {xts : List Bytes}
    {cs : List (OpaqueCall H)} (h : ScanBacked env header w xts cs w') :
    ∃ sel, sel.Sublist xts ∧
      List.Forall₂ (fun xt c => ∃ header w₀ w₁, Backs env header w₀ xt c w₁) sel cs := by
  induction h with
  | nil w => exact ⟨[], List.Sublist.slnil, .nil⟩
  | @skip w w₁ w' xt xts cs _ _ ih =>
    obtain ⟨sel, hsub, hall⟩ := ih
    exact ⟨sel, hsub.cons xt, hall⟩
  | @confirm w w₁ w' xt xts c cs hb _ ih =>
    obtain ⟨sel, hsub, hall⟩ := ih
    exact ⟨xt :: sel, hsub.cons_cons xt, .cons ⟨header, w, w₁, hb⟩ hall⟩

end Handle

/-! ## §2. The block loop. -/

section Loop

variable [DecidableEq H] (env : Env H A Acc)

/-- The loop over `blocks`, from `w` to `w'`, confirms `cs`: for each block in turn,
    `update_states` returns, the scan records the block, and the block's extrinsics are
    `ScanBacked` from there; the next block starts where the scan ended. -/
inductive LoopBacked : World H A → List (SignedBlock H) → List (OpaqueCall H) → World H A → Prop
  | nil (w : World H A) : LoopBacked w [] [] w
  | cons {w w₁ w₂ w₃ w' : World H A} {b : SignedBlock H} {bs : List (SignedBlock H)}
      {c cs : List (OpaqueCall H)} :
      mapStatus (updateStates env b.block.header) .errorUnexpected w = .ok () w₁ →
      record (.executedBlock b.block.header) w₁ = .ok () w₂ →
      ScanBacked env b.block.header w₂ b.block.extrinsics c w₃ →
      LoopBacked w₃ bs cs w' → LoopBacked w (b :: bs) (c ++ cs) w'

/-- A backed loop confirms a sublist of the batch's extrinsics, one to one and in order. -/
theorem LoopBacked.sublist {w w' : World H A} {blocks : List (SignedBlock H)}
    {cs : List (OpaqueCall H)} (h : LoopBacked env w blocks cs w') :
    ∃ sel, sel.Sublist (blocks.flatMap fun b => b.block.extrinsics) ∧
      List.Forall₂ (fun xt c => ∃ header w₀ w₁, Backs env header w₀ xt c w₁) sel cs := by
  induction h with
  | nil w => exact ⟨[], List.Sublist.slnil, .nil⟩
  | @cons w w₁ w₂ w₃ w' b bs c cs _ _ hscan _ ih =>
    obtain ⟨selb, hsubb, hallb⟩ := hscan.sublist env
    obtain ⟨sel, hsub, hall⟩ := ih
    refine ⟨selb ++ sel, ?_, List.rel_append hallb hall⟩
    rw [List.flatMap_cons]
    exact hsubb.append hsub

/-- **A returning block loop is backed**, block by block: by induction on the batch, with
    `syncBlocks_cons_ok` as the step and `scanExtrinsics_backed` for each block's scan. -/
theorem syncBlocks_loopBacked (blocks : List (SignedBlock H)) :
    ∀ (v : LightValidation H A) calls w v' calls' w',
      syncBlocks env v calls blocks w = .ok (v', calls') w' →
      ∃ new, calls' = calls ++ new ∧ LoopBacked env w blocks new w' := by
  induction blocks with
  | nil =>
    intro v calls w v' calls' w' h
    obtain ⟨-, rfl, rfl⟩ := syncBlocks_nil_ok env h
    exact ⟨[], by simp, .nil _⟩
  | cons b bs ih =>
    intro v calls w v' calls' w' h
    obtain ⟨_, v₂, w₁, c, w₂, -, -, hupdate, hscan, h⟩ := syncBlocks_cons_ok env h
    -- the scan records the block, then scans its extrinsics
    obtain ⟨u, w₁', hrecord, hscan⟩ := bind_eq_ok hscan
    obtain ⟨new, hcalls, hrest⟩ := ih v₂ (calls ++ c) w₂ v' calls' w' h
    exact ⟨c ++ new, by rw [hcalls, List.append_assoc],
      .cons hupdate hrecord (scanExtrinsics_backed env _ _ _ _ _ hscan) hrest⟩

/-- **Every confirmation has its own extrinsic, executed where the loop stood.**  The
    confirmations a returning block loop adds are backed block by block and extrinsic by
    extrinsic, each `execute` running on the shard's state in the world the loop had reached
    there (`LoopBacked`); so they confirm distinct occurrences of extrinsics of the batch, in
    order. -/
theorem confirmations_backed_by_extrinsics (blocks : List (SignedBlock H)) :
    ∀ (v : LightValidation H A) calls w v' calls' w',
      syncBlocks env v calls blocks w = .ok (v', calls') w' →
      ∃ new sel, calls' = calls ++ new ∧ LoopBacked env w blocks new w' ∧
        sel.Sublist (blocks.flatMap fun b => b.block.extrinsics) ∧
        List.Forall₂ (fun xt c => ∃ header w₀ w₁, Backs env header w₀ xt c w₁) sel new := by
  intro v calls w v' calls' w' h
  obtain ⟨new, hcalls, hbacked⟩ := syncBlocks_loopBacked env blocks v calls w v' calls' w' h
  obtain ⟨sel, hsub, hall⟩ := hbacked.sublist env
  exact ⟨new, sel, hcalls, hbacked, hsub, hall⟩

end Loop

/-- Blocks `1` and `2`, each with the same extrinsic. -/
def replayBatch : List (SignedBlock Nat) :=
  [⟨⟨Schedule.chainHeader 1 [], [[0]]⟩, none⟩, ⟨⟨Schedule.chainHeader 2 [], [[0]]⟩, none⟩]

theorem confirmations_backed_at_replay :
    ∃ v' calls' w', syncBlocks (ledgerEnv transferCall) toyRelayAtGenesis [] replayBatch
        fundedWorld = .ok (v', calls') w' ∧
      ∃ new sel, calls' = [] ++ new ∧ LoopBacked (ledgerEnv transferCall) fundedWorld replayBatch new w' ∧
        sel.Sublist (replayBatch.flatMap fun b => b.block.extrinsics) ∧
        List.Forall₂ (fun xt c => ∃ header w₀ w₁, Backs (ledgerEnv transferCall) header w₀ xt c w₁)
          sel new := by
  have hok : resultError (syncBlocks (ledgerEnv transferCall) toyRelayAtGenesis [] replayBatch
      fundedWorld) = none := by
    decide +kernel
  obtain ⟨⟨v', calls'⟩, w', h⟩ := exists_ok_of_resultError_eq_none hok
  exact ⟨v', calls', w', h,
    confirmations_backed_by_extrinsics (ledgerEnv transferCall) replayBatch _ _ _ v' calls' w' h⟩

/-- **A replayed call is executed again.**  The same `call_worker` extrinsic, carrying the
    transfer of `5` with nonce `0`, in blocks `1` and `2`: the loop executes it twice and
    confirms the same request hash twice, and account `1`'s `10` are gone. -/
theorem replayed_call_confirmed_twice :
    (resultValue (syncBlocks (ledgerEnv transferCall) toyRelayAtGenesis [] replayBatch
        fundedWorld)).map Prod.snd =
      some [.callConfirmed 1 [7] 122, .callConfirmed 1 [7] 122] ∧
    (resultValue (stateLoad (ledgerEnv transferCall) 1 (resultState (syncBlocks
        (ledgerEnv transferCall) toyRelayAtGenesis [] replayBatch fundedWorld)))).map
      (fun st => (balanceOf st 1 1, balanceOf st 1 2)) = some (0, 10) := by
  decide +kernel

/-! ## §3. Currencies. -/

/-- A registration of account `1` for currency `2`, signed for shard `1`. -/
def foreignRegistration : TrustedCallSigned Nat Nat := ⟨.ceremoniesRegisterParticipant 1 2 none, 0, []⟩

/-- **A call for another currency is executed on the shard.**  The per-shard sync reads the
    bootstrappers and locations of currency `1` into shard `1`'s state.  A registration for
    currency `2` in a `call_worker` extrinsic for shard `1`, on a new shard in `REGISTERING`
    with currency `2` registered on the chain, is executed on shard `1`'s state, which then
    holds the participant under currency `2`, and confirmed. -/
theorem foreign_currency_call_executed :
    storageHashesToUpdatePerShard toyCodec 1 =
      [bootstrapperKeyHash toyCodec 1, locationKeyHash toyCodec 1] ∧
    foreignRegistration.call.currencies = [2] ∧
    genesisWorld.shardFiles 1 = none ∧
    currentPhase toyCodec (initState toyCodec) = .registering ∧
    ledgerChain currencyIdentifiersKey = some [1, 2] ∧
    resultValue (handleCallWorkerXt (ledgerEnv foreignRegistration)
        ⟨[SUBSRATEE_REGISTRY_MODULE, CALL_WORKER], ⟨1, [7]⟩⟩ (Schedule.chainHeader 1 [])
        genesisWorld) = some (some (.callConfirmed 1 [7] 260)) ∧
    (resultValue (stateLoad (ledgerEnv foreignRegistration) 1 (resultState (handleCallWorkerXt
        (ledgerEnv foreignRegistration) ⟨[SUBSRATEE_REGISTRY_MODULE, CALL_WORKER], ⟨1, [7]⟩⟩
        (Schedule.chainHeader 1 []) genesisWorld)))).map
      (fun st => get st (participantKey 2 1)) = some (some [1]) := by
  decide +kernel

end EncointerWorker.Enclave
