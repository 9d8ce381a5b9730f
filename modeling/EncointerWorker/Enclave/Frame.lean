import EncointerWorker.Enclave.Sync
import EncointerWorker.Lib.Moves

/-!
  EncointerWorker.Enclave.Frame — what the block loop of `sync_chain_relay` may change.

  `ForHeader header` relates a world to a later one when the sealed light client is the
  same and the ghost trace has only grown, by uses of `header`.  Every function the loop
  runs for one block keeps it (`Lib.Moves`): `update_states`, `scan_block_for_relevant_xt`,
  and everything they call.  Only `stf_post_actions` seals.

  Main results:
    * `moves_updateStates`, `moves_scanBlockForRelevantXt` — the two steps of a block touch
      neither the sealed light client nor use any other header.
    * `syncBlocks_cons` — one block of the loop fails where it stands, or both relay calls
      accepted it and its two steps run; `syncBlocks_cons_ok` — the same for a returning run.
    * `moves_stfPostActions` — `stf_post_actions` writes the sealed light client only.
-/

namespace EncointerWorker.Enclave

open EncointerWorker.Relay EncointerWorker.Stf EncointerWorker.Lib.AssocMap
open EncointerWorker.Lib

variable {H A Acc : Type}

/-! ## §1. The relations. -/

/-- The ghost trace only grows, by events satisfying `P`. -/
def TraceGrows (P : Event H → Prop) (w w' : World H A) : Prop :=
  ∃ new, w'.trace = w.trace ++ new ∧ ∀ e ∈ new, P e

instance (P : Event H → Prop) : IsPreorder (World H A) (TraceGrows P) where
  refl w := ⟨[], by simp, by simp⟩
  trans := by
    rintro w₁ w₂ w₃ ⟨new₁, ht₁, he₁⟩ ⟨new₂, ht₂, he₂⟩
    refine ⟨new₁ ++ new₂, by rw [ht₂, ht₁, List.append_assoc], ?_⟩
    intro e he
    rcases List.mem_append.mp he with he | he
    · exact he₁ e he
    · exact he₂ e he

theorem traceGrows_of_eq {P : Event H → Prop} {w w' : World H A} (htrace : w'.trace = w.trace) :
    TraceGrows P w w' :=
  ⟨[], by simp [htrace], by simp⟩

theorem traceGrows_mono {P Q : Event H → Prop} (hPQ : ∀ e, P e → Q e) {w w' : World H A}
    (h : TraceGrows P w w') : TraceGrows Q w w' := by
  obtain ⟨new, ht, he⟩ := h
  exact ⟨new, ht, fun e hmem => hPQ e (he e hmem)⟩

/-- The sealed light client stays. -/
def SealedKept (w w' : World H A) : Prop := w'.sealedRelay = w.sealedRelay

instance : IsPreorder (World H A) SealedKept where
  refl _ := rfl
  trans _ _ _ h₁ h₂ := h₂.trans h₁

/-- The sealed light client stays, and the trace grows by uses of `header` only. -/
def ForHeader (header : Header H) (w w' : World H A) : Prop :=
  w'.sealedRelay = w.sealedRelay ∧ TraceGrows (fun e => e.header = header) w w'

instance (header : Header H) : IsPreorder (World H A) (ForHeader header) where
  refl w := ⟨rfl, refl_of _ w⟩
  trans := by
    rintro w₁ w₂ w₃ ⟨hs₁, ht₁⟩ ⟨hs₂, ht₂⟩
    exact ⟨hs₂.trans hs₁, trans_of _ ht₁ ht₂⟩

/-- A step that leaves both the sealed light client and the trace alone. -/
theorem forHeader_of_eq {header : Header H} {w w' : World H A}
    (hsealed : w'.sealedRelay = w.sealedRelay) (htrace : w'.trace = w.trace) :
    ForHeader header w w' :=
  ⟨hsealed, traceGrows_of_eq htrace⟩

/-! ## §2. The primitives.

  What does not write the world keeps every preorder; what writes it keeps `ForHeader`. -/

section Pure

variable {R : World H A → World H A → Prop}

/-- A run whose status errors are handled in the state they left keeps what the run keeps;
    `catchStatus` and `mapStatus` are two such handlers. -/
theorem moves_onStatus {α : Type} {x : EnclaveM H A α}
    (k : SgxStatus → World H A → EStateM.Result Fault (World H A) α)
    (hk : ∀ s w, resultState (k s w) = w) (hx : Moves R x) :
    Moves R (fun w => match x w with
      | .error (.status s) w' => k s w'
      | r => r) := by
  refine moves_tryCatchLike (fun (r : EStateM.Result Fault (World H A) α) => match r with
    | .error (.status s) w' => k s w'
    | r => r) ?_ hx
  intro r
  rcases r with ⟨a, w⟩ | ⟨e, w⟩
  · rfl
  · cases e with
    | status s => exact hk s w
    | panic => rfl

theorem moves_catchStatus {α : Type} {x : EnclaveM H A α} (default : α) (hx : Moves R x) :
    Moves R (catchStatus x default) :=
  moves_onStatus (fun _ w' => .ok default w') (fun _ _ => rfl) hx

theorem moves_mapStatus {α : Type} {x : EnclaveM H A α} (s : SgxStatus) (hx : Moves R x) :
    Moves R (mapStatus x s) :=
  moves_onStatus (fun _ w' => .error (.status s) w') (fun _ _ => rfl) hx

variable [IsPreorder (World H A) R]

theorem moves_liftStatus {α : Type} (x : Except SgxStatus α) :
    Moves R (liftStatus x : EnclaveM H A α) := by
  cases x with
  | ok a => exact moves_pure a
  | error s => exact moves_throw _

theorem moves_liftFault {α : Type} (x : Except Fault α) :
    Moves R (liftFault x : EnclaveM H A α) := by
  cases x with
  | ok a => exact moves_pure a
  | error e => exact moves_throw e

theorem moves_unwrapOption {α : Type} (x : Option α) :
    Moves R (unwrapOption x : EnclaveM H A α) := by
  cases x with
  | some a => exact moves_pure a
  | none => exact moves_throw _

theorem moves_unwrapExcept {ε α : Type} (x : Except ε α) :
    Moves R (unwrapExcept x : EnclaveM H A α) := by
  cases x with
  | ok a => exact moves_pure a
  | error _ => exact moves_throw _

theorem moves_stateExists (shard : H) : Moves R (stateExists shard : EnclaveM H A Bool) :=
  moves_bind moves_get fun _ => moves_pure _

theorem moves_stateRead (env : Env H A Acc) (shard : H) : Moves R (stateRead env shard) := by
  intro w
  simp only [stateRead, run_bind, run_get]
  -- the read only decrypts what is on disk
  cases w.shardFiles shard with
  | none => exact moves_throw _ w
  | some bytes =>
    cases bytes with
    | nil => exact moves_pure _ w
    | cons b bs => exact moves_liftFault _ w

theorem moves_stateLoad (env : Env H A Acc) (shard : H) : Moves R (stateLoad env shard) := by
  refine moves_bind (moves_stateRead env shard) fun v => ?_
  split
  · exact moves_pure _
  · exact moves_pure _

end Pure

section Writes

variable {header : Header H}

theorem moves_record (e : Event H) (he : e.header = header) :
    Moves (ForHeader header) (record e : EnclaveM H A Unit) :=
  moves_modify fun w => ⟨rfl, [e], rfl, by simpa using he⟩

theorem moves_workerRequest (env : Env H A Acc) (req : List (WorkerRequest H)) :
    Moves (ForHeader header) (workerRequest env req) := by
  intro w
  -- the ocall only logs the request
  have hlog : ForHeader header w { w with requests := w.requests ++ [req] } :=
    forHeader_of_eq rfl rfl
  simp only [workerRequest, run_bind, run_get, run_set]
  exact trans_of (ForHeader header) hlog (moves_liftStatus _ _)

theorem moves_initShard [DecidableEq H] (shard : H) :
    Moves (ForHeader header) (initShard shard : EnclaveM H A Unit) :=
  moves_modify fun _ => forHeader_of_eq rfl rfl

theorem moves_stateWrite [DecidableEq H] (env : Env H A Acc) (state : State) (shard : H) :
    Moves (ForHeader header) (stateWrite env state shard) := by
  intro w
  simp only [stateWrite, run_bind, run_get]
  cases deOrEncrypt env w.aesKeyIv (env.encodeState state) with
  | ok c => exact forHeader_of_eq rfl rfl
  | error e => exact refl_of (ForHeader header) w

end Writes

/-! ## §3. The steps of one block. -/

section Steps

variable [DecidableEq H] (env : Env H A Acc) (header : Header H)

omit [DecidableEq H] in
theorem moves_requestVerified (keys : List Bytes) :
    Moves (ForHeader header) (requestVerified env keys header) :=
  moves_bind (moves_workerRequest env _) fun _ =>
    moves_bind (moves_record _ rfl) fun _ => moves_liftStatus _

theorem moves_updateShard (updateMap : UpdateMap) (s : H) :
    Moves (ForHeader header) (updateShard env header updateMap s) := by
  unfold updateShard
  dsimp only
  refine moves_bind (moves_stateExists s) fun b => ?_
  -- a missing shard is initialised first; then both branches run the same sync
  split
  all_goals
    first
    | refine moves_bind (moves_initShard s) fun _ => ?_
    | skip
  all_goals
    refine moves_bind (moves_requestVerified env header _) fun _ => ?_
    refine moves_bind (moves_stateLoad env s) fun _ => ?_
    exact moves_bind (moves_stateWrite env _ s) fun _ => moves_pure _

theorem moves_updateShards (updateMap : UpdateMap) (shards : List H) :
    Moves (ForHeader header) (updateShards env header updateMap shards) := by
  induction shards with
  | nil => exact moves_pure _
  | cons s shards ih => exact moves_bind (moves_updateShard env header updateMap s) fun _ => ih

/-- **`update_states` keeps the frame.** -/
theorem moves_updateStates : Moves (ForHeader header) (updateStates env header) := by
  unfold updateStates
  dsimp only
  split
  · exact moves_pure _
  · refine moves_bind (moves_requestVerified env header _) fun updateMap => ?_
    split
    · exact moves_bind (moves_liftStatus _) fun _ => moves_updateShards env header _ _
    · exact moves_pure _

theorem moves_handleCallWorkerXt (xt : CallWorkerXt H) :
    Moves (ForHeader header) (handleCallWorkerXt env xt header) := by
  unfold handleCallWorkerXt
  dsimp only
  refine moves_bind (moves_liftStatus _) fun requestVec => ?_
  split
  · exact moves_pure _
  · split
    · exact moves_pure _
    · -- load or initialise the shard; then both branches sync its keys, execute, write
      refine moves_bind (moves_stateExists xt.request.shard) fun b => ?_
      split
      all_goals
        first
        | refine moves_bind (moves_stateLoad env _) fun state => ?_
        | refine moves_bind (moves_initShard _) fun _ => moves_bind (moves_pure _) fun state => ?_
      all_goals
        refine moves_bind (moves_requestVerified env header _) fun updateMap => ?_
        split
        · exact moves_throw _
        · exact moves_pure _
        · exact moves_bind (moves_stateWrite env _ _) fun _ => moves_pure _

/-- **The scan keeps what every `handle_call_worker_xt` keeps.**  By induction on the
    extrinsics; only a decodable `call_worker` extrinsic is handled. -/
theorem moves_scanExtrinsics_of {R : World H A → World H A → Prop} [IsPreorder (World H A) R]
    (hhandle : ∀ xt, Moves R (handleCallWorkerXt env xt header)) (xts : List Bytes) :
    Moves R (scanExtrinsics env header xts) := by
  induction xts with
  | nil => exact moves_pure _
  | cons xt xts ih =>
    rw [scanExtrinsics]
    have hrest : ∀ call : Option (OpaqueCall H), Moves R (do
        let calls ← scanExtrinsics env header xts
        pure (call.toList ++ calls)) :=
      fun _ => moves_bind ih fun _ => moves_pure _
    split
    · split
      · exact moves_bind (moves_catchStatus _ (hhandle _)) hrest
      · exact moves_bind (moves_pure _) hrest
    · exact moves_bind (moves_pure _) hrest

theorem moves_scanExtrinsics (xts : List Bytes) :
    Moves (ForHeader header) (scanExtrinsics env header xts) :=
  moves_scanExtrinsics_of env header (moves_handleCallWorkerXt env header) xts

/-- **Scanning a block keeps the frame of its header.** -/
theorem moves_scanBlockForRelevantXt (block : Block H) :
    Moves (ForHeader block.header) (scanBlockForRelevantXt env block) :=
  moves_bind (moves_record _ rfl) fun _ => moves_scanExtrinsics env block.header _

end Steps

/-! ## §4. The block loop. -/

section Loop

variable [DecidableEq H] (env : Env H A Acc)

/-- **What one block of the loop can do.**  The loop fails where it stands (a panic of
    `check_xt_inclusion`, or an `Err` of `submit_simple_header`), or both relay calls
    accepted the block and the loop runs `update_states`, the scan and the rest of the batch
    on the light client `submit_simple_header` left. -/
theorem syncBlocks_cons (v : LightValidation H A) (calls : List (OpaqueCall H))
    (b : SignedBlock H) (bs : List (SignedBlock H)) (w : World H A) :
    (∃ e, syncBlocks env v calls (b :: bs) w = .error e w) ∨
    ∃ v₁ v₂, checkXtInclusion env.S v v.numRelays b.block = some (.ok (), v₁) ∧
      submitSimpleHeader env.S v₁ v₁.numRelays b.block.header b.justification =
        some (.ok (), v₂) ∧
      syncBlocks env v calls (b :: bs) w = (do
        mapStatus (updateStates env b.block.header) .errorUnexpected
        let c ← scanBlockForRelevantXt env b.block
        syncBlocks env v₂ (calls ++ c) bs) w := by
  -- name the results of the two relay calls; each failing one ends the run in place
  cases hcheck : checkXtInclusion env.S v v.numRelays b.block with
  | none =>
    refine .inl ⟨.panic, ?_⟩
    simp only [syncBlocks, relayCall, hcheck, unwrapOption_none_bind]
    rfl
  | some p =>
    obtain ⟨r, v₁⟩ := p
    cases r with
    | error e =>
      refine .inl ⟨.panic, ?_⟩
      simp only [syncBlocks, relayCall, hcheck, unwrapOption_some_bind, unwrapExcept_error_bind]
      rfl
    | ok u =>
      cases hsub : submitSimpleHeader env.S v₁ v₁.numRelays b.block.header b.justification with
      | none =>
        refine .inl ⟨.panic, ?_⟩
        simp only [syncBlocks, relayCall, hcheck, hsub, unwrapOption_some_bind,
          unwrapExcept_ok_bind, unwrapOption_none_bind]
        rfl
      | some q =>
        obtain ⟨r₂, v₂⟩ := q
        cases r₂ with
        | error e =>
          -- "Block verification failed"
          refine .inl ⟨.status .errorUnexpected, ?_⟩
          simp only [syncBlocks, relayCall, hcheck, hsub, unwrapOption_some_bind,
            unwrapExcept_ok_bind]
          rfl
        | ok u₂ =>
          refine .inr ⟨v₁, v₂, rfl, hsub, ?_⟩
          simp only [syncBlocks, relayCall, hcheck, hsub, unwrapOption_some_bind,
            unwrapExcept_ok_bind]

/-- The empty loop returns its light client and confirmations in place. -/
theorem syncBlocks_nil_ok {v v' : LightValidation H A} {calls calls' : List (OpaqueCall H)}
    {w w' : World H A} (h : syncBlocks env v calls [] w = .ok (v', calls') w') :
    v' = v ∧ calls' = calls ∧ w' = w := by
  simp only [syncBlocks, run_pure, EStateM.Result.ok.injEq, Prod.mk.injEq] at h
  obtain ⟨⟨hv, hcalls⟩, hw⟩ := h
  exact ⟨hv.symm, hcalls.symm, hw.symm⟩

/-- **What a returning block does.**  Both relay calls accepted it, and `update_states`, the
    scan and the rest of the batch each returned, one after the other. -/
theorem syncBlocks_cons_ok {v : LightValidation H A} {calls : List (OpaqueCall H)}
    {b : SignedBlock H} {bs : List (SignedBlock H)} {w w' : World H A}
    {r : LightValidation H A × List (OpaqueCall H)}
    (h : syncBlocks env v calls (b :: bs) w = .ok r w') :
    ∃ v₁ v₂ w₁ c w₂, checkXtInclusion env.S v v.numRelays b.block = some (.ok (), v₁) ∧
      submitSimpleHeader env.S v₁ v₁.numRelays b.block.header b.justification =
        some (.ok (), v₂) ∧
      mapStatus (updateStates env b.block.header) .errorUnexpected w = .ok () w₁ ∧
      scanBlockForRelevantXt env b.block w₁ = .ok c w₂ ∧
      syncBlocks env v₂ (calls ++ c) bs w₂ = .ok r w' := by
  rcases syncBlocks_cons env v calls b bs w with ⟨e, he⟩ | ⟨v₁, v₂, hcheck, hsub, hrun⟩
  · rw [he] at h
    cases h
  · rw [hrun] at h
    obtain ⟨u, w₁, hupdate, h⟩ := bind_eq_ok h
    obtain ⟨c, w₂, hscan, h⟩ := bind_eq_ok h
    exact ⟨v₁, v₂, w₁, c, w₂, hcheck, hsub, hupdate, hscan, h⟩

/-- A block both relay calls accept runs its two steps, then the rest of the batch. -/
theorem syncBlocks_cons_accepted {v v₁ v₂ : LightValidation H A} {calls : List (OpaqueCall H)}
    {b : SignedBlock H} {bs : List (SignedBlock H)}
    (hcheck : checkXtInclusion env.S v v.numRelays b.block = some (.ok (), v₁))
    (hsub : submitSimpleHeader env.S v₁ v₁.numRelays b.block.header b.justification =
      some (.ok (), v₂)) :
    syncBlocks env v calls (b :: bs) = (do
      mapStatus (updateStates env b.block.header) .errorUnexpected
      let c ← scanBlockForRelevantXt env b.block
      syncBlocks env v₂ (calls ++ c) bs) := by
  simp only [syncBlocks, relayCall, hcheck, hsub, unwrapOption_some_bind, unwrapExcept_ok_bind]

/-- **The loop keeps what every accepted block keeps.**  `R v blocks` is a preorder for the
    loop over `blocks` from the light client `v`.  If it grows from the rest of the batch, run
    from the light client a block's two relay calls leave, to the batch, and if the two steps
    of every block the relay calls accept keep it, so does the whole loop.  By induction on
    the batch, with `syncBlocks_cons` as the step. -/
theorem moves_syncBlocks_of
    (R : LightValidation H A → List (SignedBlock H) → World H A → World H A → Prop)
    [∀ v bs, IsPreorder (World H A) (R v bs)]
    (hgrow : ∀ b bs v v₁ v₂, checkXtInclusion env.S v v.numRelays b.block = some (.ok (), v₁) →
      submitSimpleHeader env.S v₁ v₁.numRelays b.block.header b.justification = some (.ok (), v₂) →
      ∀ w w', R v₂ bs w w' → R v (b :: bs) w w')
    (hblock : ∀ b bs v v₁ v₂, checkXtInclusion env.S v v.numRelays b.block = some (.ok (), v₁) →
      submitSimpleHeader env.S v₁ v₁.numRelays b.block.header b.justification = some (.ok (), v₂) →
      ∀ w w', ForHeader b.block.header w w' → R v (b :: bs) w w')
    (blocks : List (SignedBlock H)) :
    ∀ v calls, Moves (R v blocks) (syncBlocks env v calls blocks) := by
  induction blocks with
  | nil => intro v calls; exact moves_pure _
  | cons b bs ih =>
    intro v calls w
    rcases syncBlocks_cons env v calls b bs w with ⟨e, he⟩ | ⟨v₁, v₂, hcheck, hsub, hrun⟩
    · rw [he]
      exact refl_of _ w
    · have hstep : ∀ {α : Type} {x : EnclaveM H A α}, Moves (ForHeader b.block.header) x →
          Moves (R v (b :: bs)) x :=
        fun hx => moves_mono hx (hblock b bs v v₁ v₂ hcheck hsub)
      have hrest : ∀ c, Moves (R v (b :: bs)) (syncBlocks env v₂ (calls ++ c) bs) :=
        fun c => moves_mono (ih v₂ (calls ++ c)) (hgrow b bs v v₁ v₂ hcheck hsub)
      rw [hrun]
      exact moves_bind (hstep (moves_mapStatus _ (moves_updateStates env _))) (fun _ =>
        moves_bind (hstep (moves_scanBlockForRelevantXt env b.block)) hrest) w

/-- The block loop keeps the light client in a local: the seal stays. -/
theorem moves_syncBlocks_sealed (blocks : List (SignedBlock H)) (v : LightValidation H A)
    (calls : List (OpaqueCall H)) : Moves SealedKept (syncBlocks env v calls blocks) :=
  moves_syncBlocks_of env (fun _ _ => SealedKept) (fun _ _ _ _ _ _ _ _ _ h => h)
    (fun _ _ _ _ _ _ _ _ _ h => h.1) blocks v calls

end Loop

/-! ## §5. Unsealing and `stf_post_actions`. -/

section Post

variable {R : World H A → World H A → Prop}

/-- What follows `unseal` runs on the light client of the world it starts from. -/
theorem moves_unsealRelay_bind {β : Type} {g : LightValidation H A → EnclaveM H A β}
    (hg : ∀ w, R w (resultState (g w.sealedRelay w))) : Moves R (unsealRelay >>= g) := by
  intro w
  exact hg w

theorem moves_sealRelay (hseal : ∀ w v, R w { w with sealedRelay := v }) (v : LightValidation H A) :
    Moves R (sealRelay v) :=
  moves_modify fun w => hseal w v

variable [IsPreorder (World H A) R]

theorem moves_writeSliceAndWhitespacePad (writableLen : Nat) (data : Bytes) :
    Moves R (writeSliceAndWhitespacePad writableLen data : EnclaveM H A Bytes) := by
  unfold writeSliceAndWhitespacePad
  split
  · exact moves_throw _
  · exact moves_pure _

variable (env : Env H A Acc)

theorem moves_composeCalls (v : LightValidation H A) (nonce : Nat) (calls : List (OpaqueCall H)) :
    Moves R (composeCalls env v nonce calls) := by
  induction calls generalizing nonce with
  | nil => exact moves_pure _
  | cons call calls ih =>
    exact moves_bind (moves_unwrapOption _) fun _ => moves_bind (moves_unwrapExcept _) fun _ =>
      moves_bind (ih (nonce + 1)) fun _ => moves_pure _

theorem moves_submitAll (v : LightValidation H A) (xts : List Bytes) :
    Moves R (submitAll v xts : EnclaveM H A _) := by
  induction xts generalizing v with
  | nil => exact moves_pure _
  | cons xt xts ih =>
    exact moves_bind (moves_unwrapOption _) fun p =>
      moves_bind (moves_unwrapExcept _) fun _ => ih p.2

/-- **`stf_post_actions` writes only the sealed light client.** -/
theorem moves_stfPostActions (hseal : ∀ w v, R w { w with sealedRelay := v })
    (v : LightValidation H A) (calls : List (OpaqueCall H)) (extrinsicsSliceLen nonce : Nat) :
    Moves R (stfPostActions env v calls extrinsicsSliceLen nonce) :=
  moves_bind (moves_composeCalls env v nonce calls) fun xts =>
    moves_bind (moves_submitAll v xts) fun v' =>
      moves_bind (moves_writeSliceAndWhitespacePad _ _) fun _ =>
        moves_bind (moves_sealRelay hseal v') fun _ => moves_pure _

end Post

end EncointerWorker.Enclave
