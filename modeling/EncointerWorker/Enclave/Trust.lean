import EncointerWorker.Enclave.Frame
import EncointerWorker.Relay.Schedule

/-!
  EncointerWorker.Enclave.Trust — the headers the enclave acts on (`sync_chain_relay` and
  `get_state` in `enclave/src/lib.rs`).

  The ghost trace of the world records each header whose state root a storage proof is
  checked against (`provedStorage`) and each block whose `call_worker` extrinsics are
  executed (`executedBlock`).  `sync_chain_relay` acts on a block of the batch as soon as
  `submit_simple_header` accepts it.  A block without a justification is accepted on the
  parent-hash check alone: it becomes the relay's head and its hash is queued in
  `unjustified_headers`, not in `header_hashes`.  `get_state` proves storage against the
  head of the sealed light client, whichever way that head was accepted.

  Main results:
    * `submitSimpleHeader_isHead` — an accepted header is the relay's new head, its hash
      queued in `header_hashes ++ unjustified_headers`.
    * `moves_syncBlocks` — the block loop uses only blocks of the batch that
      `submit_simple_header` accepted, from the light client the earlier blocks left
      (`AcceptedIn`).
    * `enclave_uses_accepted_headers` — every header `sync_chain_relay` or `get_state` acts
      on is a head the light client accepted.
    * `unjustified_header_used` — a block without justification: its storage is proven and
      its extrinsics executed while its hash is only in `unjustified_headers`.
-/

namespace EncointerWorker.Enclave

open EncointerWorker.Relay EncointerWorker.Stf EncointerWorker.Lib

variable {H A Acc : Type}

/-! ## §1. Accepted headers. -/

section Accepted

variable [DecidableEq H] (S : Substrate H A)

/-- `header` is the head of relay `relayId` of `v`, and its hash is queued behind the relay's
    hashes, finalized or not. -/
def IsHead (v : LightValidation H A) (relayId : Nat) (header : Header H) : Prop :=
  ∃ relay, v.trackedRelays relayId = some relay ∧ relay.lastFinalizedBlockHeader = header ∧
    S.hash header ∈ relay.headerHashes ++ relay.unjustifiedHeaders

/-- **An accepted header is the new head**, with or without a justification. -/
theorem submitSimpleHeader_isHead {v v' : LightValidation H A} {relayId : Nat}
    {header : Header H} {grandpaProof : Option Bytes}
    (h : submitSimpleHeader S v relayId header grandpaProof = some (.ok (), v')) :
    IsHead S v' relayId header := by
  obtain ⟨relay, -, -, hcases⟩ := submitSimpleHeader_ok S h
  rcases hcases with ⟨-, rfl⟩ | ⟨j, -, -, -, rfl⟩
  · -- queued as unjustified
    exact ⟨_, setRelay_same .., acceptUnjustified_lastFinalizedBlockHeader .., by simp⟩
  · -- finalized by its justification
    exact ⟨_, setRelay_same .., acceptJustified_lastFinalizedBlockHeader .., by simp⟩

/-- `b` is a block of `blocks` that the loop over `blocks`, started on the light client `v`,
    accepts: the blocks before it passed `check_xt_inclusion` and `submit_simple_header`, each
    from the light client the blocks before it left, and so did `b`, which became the head.
    A block after a rejected one is never reached. -/
def AcceptedIn : LightValidation H A → List (SignedBlock H) → SignedBlock H → Prop
  | _, [], _ => False
  | v, b' :: bs, b => ∃ v₁ v₂, checkXtInclusion S v v.numRelays b'.block = some (.ok (), v₁) ∧
      submitSimpleHeader S v₁ v₁.numRelays b'.block.header b'.justification = some (.ok (), v₂) ∧
      (b' = b ∧ IsHead S v₂ v₁.numRelays b.block.header ∨ AcceptedIn v₂ bs b)

/-- An event that uses the header of a block the loop over `blocks` from `v` accepted. -/
def UsedAccepted (v : LightValidation H A) (blocks : List (SignedBlock H)) (e : Event H) : Prop :=
  ∃ b, e.header = b.block.header ∧ AcceptedIn S v blocks b

end Accepted

/-! ## §2. `sync_chain_relay`. -/

section Sync

variable [DecidableEq H] (env : Env H A Acc)

/-- **The block loop acts on accepted blocks only**: the two steps of an accepted block use
    its header only, and the rest of the batch runs from the light client it left. -/
theorem moves_syncBlocks (blocks : List (SignedBlock H)) (v : LightValidation H A)
    (calls : List (OpaqueCall H)) :
    Moves (TraceGrows (UsedAccepted env.S v blocks)) (syncBlocks env v calls blocks) := by
  refine moves_syncBlocks_of env (fun v bs => TraceGrows (UsedAccepted env.S v bs)) ?_ ?_
    blocks v calls
  · -- a block the rest accepts is one the batch accepts, after this block
    intro b bs v v₁ v₂ hcheck hsub w w' h
    refine traceGrows_mono (fun e ⟨b', he, hacc⟩ => ?_) h
    exact ⟨b', he, v₁, v₂, hcheck, hsub, .inr hacc⟩
  · -- the header of an accepted block is a use of it
    intro b bs v v₁ v₂ hcheck hsub w w' h
    refine traceGrows_mono (fun e he => ?_) h.2
    exact ⟨b, he, v₁, v₂, hcheck, hsub, .inl ⟨rfl, submitSimpleHeader_isHead env.S hsub⟩⟩

/-- `sync_chain_relay` acts on the blocks the loop accepts from the light client unsealed
    from the world it starts in. -/
theorem syncChainRelay_usesAccepted (blocks : List (SignedBlock H))
    (nonce extrinsicsSliceLen : Nat) (w : World H A) :
    TraceGrows (UsedAccepted env.S w.sealedRelay blocks) w
      (resultState (syncChainRelay env blocks nonce extrinsicsSliceLen w)) := by
  have hrun : Moves (TraceGrows (UsedAccepted env.S w.sealedRelay blocks))
      (syncBlocks env w.sealedRelay [] blocks >>= fun p =>
        mapStatus (stfPostActions env p.1 p.2 extrinsicsSliceLen nonce) .errorUnexpected) :=
    -- `stf_post_actions` seals, and writes no trace
    moves_bind (moves_syncBlocks env blocks w.sealedRelay []) fun _ =>
      moves_mapStatus _ (moves_stfPostActions env (fun _ _ => traceGrows_of_eq rfl) _ _ _ _)
  exact hrun w

end Sync

/-! ## §3. `get_state`. -/

section GetState

variable [DecidableEq H] (env : Env H A Acc)

/-- The sealed light client stays, and the trace grows by uses of its latest header only. -/
def UsesSealedHead (w w' : World H A) : Prop :=
  w'.sealedRelay = w.sealedRelay ∧
    TraceGrows (fun e => latestHeader w.sealedRelay w.sealedRelay.numRelays = .ok e.header) w w'

instance : IsPreorder (World H A) UsesSealedHead where
  refl w := ⟨rfl, refl_of _ w⟩
  trans := by
    rintro w₁ w₂ w₃ ⟨hs₁, ht₁⟩ ⟨hs₂, ht₂⟩
    -- the second segment's head is the first's, since the sealed client did not move
    rw [hs₁] at ht₂
    exact ⟨hs₂.trans hs₁, trans_of _ ht₁ ht₂⟩

omit [DecidableEq H] in
theorem usesSealedHead_of_forHeader {header : Header H} {w w' : World H A}
    (hhead : latestHeader w.sealedRelay w.sealedRelay.numRelays = .ok header)
    (h : ForHeader header w w') : UsesSealedHead w w' :=
  ⟨h.1, traceGrows_mono (fun e he => by rw [he, hhead]) h.2⟩

/-- **`get_state` acts on the sealed head only.** -/
theorem moves_getStateEcall (getter : Getter Acc H) (shard : H) (valueLen : Nat)
    (encodeValue : Option Bytes → Bytes) :
    Moves UsesSealedHead (getStateEcall env getter shard valueLen encodeValue) := by
  unfold getStateEcall
  dsimp only
  cases getter <;> dsimp only
  -- a trusted getter's signature is checked first; a bad one fails in place
  on_goal 2 => refine moves_ite (moves_bind (moves_throw _) fun _ => ?_) ?_
  -- a missing shard is initialised, then loaded
  all_goals
    refine moves_bind (moves_stateExists shard) fun b =>
      moves_ite (moves_bind (moves_modify fun w => ⟨rfl, traceGrows_of_eq rfl⟩) fun _ => ?_) ?_
  all_goals
    refine moves_bind (moves_stateLoad env shard) fun state => ?_
    -- from here on the run uses the head of the light client it unsealed
    refine moves_unsealRelay_bind fun w => ?_
    cases hhead : latestHeader w.sealedRelay w.sealedRelay.numRelays with
    | error e => exact refl_of _ w
    | ok header =>
      refine usesSealedHead_of_forHeader hhead ((?_ : Moves (ForHeader header) _) w)
      rw [unwrapExcept_ok_bind]
      exact moves_ite (moves_bind (moves_pure _) fun _ => moves_writeSliceAndWhitespacePad _ _)
        (moves_bind (moves_requestVerified env header _) fun _ =>
          moves_bind (moves_pure _) fun _ => moves_writeSliceAndWhitespacePad _ _)

end GetState

/-! ## §4. What the enclave trusts. -/

/-- **Every header the enclave acts on is an accepted head.**  A header whose storage
    `sync_chain_relay` proves or whose block it executes is the header of a block of the
    batch that the loop accepted, from the sealed light client and then the light client the
    earlier blocks left (it became the relay's head, its hash in
    `header_hashes ++ unjustified_headers`); the header `get_state` proves storage against
    is the head of the sealed light client. -/
theorem enclave_uses_accepted_headers [DecidableEq H] (env : Env H A Acc)
    (blocks : List (SignedBlock H)) (nonce extrinsicsSliceLen : Nat)
    (getter : Getter Acc H) (shard : H) (valueLen : Nat) (encodeValue : Option Bytes → Bytes) :
    (∀ w, TraceGrows (UsedAccepted env.S w.sealedRelay blocks) w
        (resultState (syncChainRelay env blocks nonce extrinsicsSliceLen w))) ∧
      Moves UsesSealedHead (getStateEcall env getter shard valueLen encodeValue) :=
  ⟨syncChainRelay_usesAccepted env blocks nonce extrinsicsSliceLen,
    moves_getStateEcall env getter shard valueLen encodeValue⟩

/-- The light client of `toySubstrate` with relay `1` on header `0`. -/
def toyRelayAtGenesis : LightValidation Nat Nat :=
  { (LightValidation.new : LightValidation Nat Nat).setRelay 1
      (RelayState.new toySubstrate.hash (Schedule.chainHeader 0 []) Schedule.oldSet) with
    numRelays := 1 }

/-- `toyWorld` with that light client sealed. -/
def genesisWorld : World Nat Nat := { toyWorld with sealedRelay := toyRelayAtGenesis }

/-- Block `1`, a child of header `0`, without justification. -/
def unjustifiedBlock : SignedBlock Nat := ⟨⟨Schedule.chainHeader 1 [], []⟩, none⟩

/-- **An unjustified header is acted on.**  `sync_chain_relay` with the single block `1`,
    which carries no justification: the enclave checks storage proofs against its state root
    and executes it, and the light client it seals has block `1` as head with its hash in
    `unjustified_headers` only. -/
theorem unjustified_header_used :
    (resultState (syncChainRelay toyEnv [unjustifiedBlock] 0 16
        genesisWorld)).trace =
      [.provedStorage (Schedule.chainHeader 1 []), .executedBlock (Schedule.chainHeader 1 [])] ∧
    ((resultState (syncChainRelay toyEnv [unjustifiedBlock] 0 16
        genesisWorld)).sealedRelay.trackedRelays 1).map
        (fun r => (r.lastFinalizedBlockHeader, r.headerHashes, r.unjustifiedHeaders)) =
      some (Schedule.chainHeader 1 [], [0], [1]) := by
  decide

end EncointerWorker.Enclave
