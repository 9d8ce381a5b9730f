import EncointerWorker.Relay.Runs
import EncointerWorker.Enclave.Disk
import EncointerWorker.Enclave.Persist

/-!
  EncointerWorker.Enclave.SealedRelay — the sealed light client over every run of the
  ECALLs `init_chain_relay`, `sync_chain_relay` and `get_state` (`enclave/src/lib.rs`,
  `io::light_validation` in `enclave/src/io.rs`).

  Each ECALL does to the sealed light client what a run of the relay API does.  `get_state`
  and every failing path leave it; `sync_chain_relay` seals what `check_xt_inclusion`,
  `submit_simple_header` and `submit_xt_to_be_included` made of the light client it
  unsealed; `init_validator` seals `initialize_relay` on `LightValidation::new()`.  So every
  sealed light client is a state of the relay's own transition system (`Relay.Invariant`),
  started by one `initialize_relay`: the relay invariant holds of it with one relay, the
  unwraps of `read_or_init_validator` never fire, and its finalized hashes only grow until
  an `init_chain_relay` with another genesis replaces it.

  Main results:
    * `syncChainRelay_runsFrom` — what `sync_chain_relay` seals is a run of submissions from
      what it unsealed.
    * `diskInv_reachable` — on every reachable disk with `CHAIN_RELAY_DB`, the sealed light
      client is a reachable relay with one initial header.
    * `sealed_light_client_invariant` — the relay invariant of the sealed light client, one
      relay, and its `genesis_hash(1)` and `latest_header(1)` answering.
    * `init_chain_relay_on_reachable` — what `init_chain_relay` does on a reachable disk: the
      sealed head back when the genesis is the sealed one, a fresh light client at the given
      header otherwise.
    * `sealed_finality_only_grows` — across `sync_chain_relay` and `get_state`, the sealed
      relay's finalized and imported hashes only grow.
-/

namespace EncointerWorker.Enclave

open EncointerWorker.Relay EncointerWorker.Relay.Invariant EncointerWorker.Stf
  EncointerWorker.Lib

variable {H A Acc : Type}

/-! ## §1. `sync_chain_relay` is a run of submissions. -/

section Sync

variable [DecidableEq H] (env : Env H A Acc)

omit [DecidableEq H] in
theorem resultState_mapStatus {α : Type} (x : EnclaveM H A α) (s : SgxStatus) (w : World H A) :
    resultState (mapStatus x s w) = resultState (x w) := by
  unfold mapStatus
  cases x w with
  | ok a w' => rfl
  | error e w' => cases e <;> rfl

/-- Queueing the confirmations is a run of `submit_xt_to_be_included`. -/
theorem submitAll_runsFrom (xts : List Bytes) :
    ∀ (v : LightValidation H A) {v' : LightValidation H A} {w w' : World H A},
      submitAll v xts w = .ok v' w' → RunsFrom env.S v v' := by
  induction xts with
  | nil =>
    intro v v' w w' h
    simp only [submitAll, run_pure, EStateM.Result.ok.injEq] at h
    rw [← h.1]
    exact runsFrom_refl env.S v
  | cons xt xts ih =>
    intro v v' w w' h
    cases hsubmit : submitXtToBeIncluded v v.numRelays xt with
    | none =>
      have hpanic : submitAll v (xt :: xts) w = .error .panic w := by
        simp only [submitAll, relayCall, hsubmit]
        rfl
      rw [hpanic] at h
      cases h
    | some p =>
      obtain ⟨r, v₁⟩ := p
      cases r with
      | error e =>
        have hpanic : submitAll v (xt :: xts) w = .error .panic w := by
          simp only [submitAll, relayCall, hsubmit]
          rfl
        rw [hpanic] at h
        cases h
      | ok u =>
        have hstep : submitAll v (xt :: xts) w = submitAll v₁ xts w := by
          simp only [submitAll, relayCall, hsubmit]
          rfl
        rw [hstep] at h
        have hcall : (RelayOp.submitXtToBeIncluded (A := A) v.numRelays xt).call env.S v =
            some (.ok u, v₁) := hsubmit
        exact (runsFrom_call env.S (by intro _ _ _ h; cases h) hcall).trans env.S (ih v₁ h)

/-- **The block loop is a run of submissions**: per block, `check_xt_inclusion` and
    `submit_simple_header`. -/
theorem syncBlocks_runsFrom (blocks : List (SignedBlock H)) :
    ∀ (v : LightValidation H A) (calls : List (OpaqueCall H)) (w : World H A)
      {v' : LightValidation H A} {calls' : List (OpaqueCall H)} {w' : World H A},
      syncBlocks env v calls blocks w = .ok (v', calls') w' → RunsFrom env.S v v' := by
  induction blocks with
  | nil =>
    intro v calls w v' calls' w' h
    obtain ⟨rfl, -, -⟩ := syncBlocks_nil_ok env h
    exact runsFrom_refl env.S _
  | cons b bs ih =>
    intro v calls w v' calls' w' h
    obtain ⟨v₁, v₂, -, c, w₂, hcheck, hsub, -, -, h⟩ := syncBlocks_cons_ok env h
    have hcheck' : (RelayOp.checkXtInclusion (A := A) v.numRelays b.block).call env.S v =
        some (.ok (), v₁) := hcheck
    have hsub' : (RelayOp.submitSimpleHeader (A := A) v₁.numRelays b.block.header
        b.justification).call env.S v₁ = some (.ok (), v₂) := hsub
    have h₁ : RunsFrom env.S v v₁ := runsFrom_call env.S (by intro _ _ _ h; cases h) hcheck'
    have h₂ : RunsFrom env.S v₁ v₂ := runsFrom_call env.S (by intro _ _ _ h; cases h) hsub'
    exact (h₁.trans env.S h₂).trans env.S (ih v₂ (calls ++ c) w₂ h)

/-- `stf_post_actions` fails in place, or seals what queueing made of its light client. -/
theorem stfPostActions_seals (v : LightValidation H A) (calls : List (OpaqueCall H))
    (extrinsicsSliceLen nonce : Nat) (w : World H A) :
    resultState (stfPostActions env v calls extrinsicsSliceLen nonce w) = w ∨
      ∃ v', RunsFrom env.S v v' ∧
        resultState (stfPostActions env v calls extrinsicsSliceLen nonce w) =
          { w with sealedRelay := v' } := by
  simp only [stfPostActions, run_bind]
  rcases run_of_moves_eq (moves_composeCalls env v nonce calls) w with ⟨e, he⟩ | ⟨xts, hxts⟩
  · rw [he]
    exact .inl rfl
  simp only [hxts]
  rcases run_of_moves_eq (moves_submitAll v xts) w with ⟨e, he⟩ | ⟨v', hv'⟩
  · rw [he]
    exact .inl rfl
  simp only [hv']
  rcases run_of_moves_eq (moves_writeSliceAndWhitespacePad extrinsicsSliceLen
      (env.encodeExtrinsics xts)) w with ⟨e, he⟩ | ⟨out, hout⟩
  · rw [he]
    exact .inl rfl
  rw [hout]
  exact .inr ⟨v', submitAll_runsFrom env xts v hv', rfl⟩

/-- **What `sync_chain_relay` seals is a run of submissions from what it unsealed**, however
    the ECALL ends. -/
theorem syncChainRelay_runsFrom (blocks : List (SignedBlock H)) (nonce extrinsicsSliceLen : Nat)
    (w : World H A) :
    RunsFrom env.S w.sealedRelay
      (resultState (syncChainRelay env blocks nonce extrinsicsSliceLen w)).sealedRelay := by
  have hloop := moves_syncBlocks_sealed env blocks w.sealedRelay [] w
  rw [syncChainRelay_eq, run_bind_eq]
  cases hrun : syncBlocks env w.sealedRelay [] blocks w with
  | error e w₁ =>
    -- the loop failed; it kept the light client in a local
    rw [hrun] at hloop
    show RunsFrom env.S w.sealedRelay w₁.sealedRelay
    rw [show w₁.sealedRelay = w.sealedRelay from hloop]
    exact runsFrom_refl env.S _
  | ok p w₁ =>
    obtain ⟨v', calls⟩ := p
    rw [hrun] at hloop
    have hv' := syncBlocks_runsFrom env blocks w.sealedRelay [] w hrun
    show RunsFrom env.S w.sealedRelay
      (resultState (mapStatus (stfPostActions env v' calls extrinsicsSliceLen nonce)
        .errorUnexpected w₁)).sealedRelay
    rw [resultState_mapStatus]
    rcases stfPostActions_seals env v' calls extrinsicsSliceLen nonce w₁ with h | ⟨v'', hv'', h⟩
    · rw [h, show w₁.sealedRelay = w.sealedRelay from hloop]
      exact runsFrom_refl env.S _
    · rw [h]
      exact hv'.trans env.S hv''

end Sync

/-! ## §2. `get_state` keeps the seal. -/

section GetState

variable [DecidableEq H] (env : Env H A Acc)

theorem moves_getStateWithoutRelayDb (getter : Getter Acc H) (shard : H) :
    Moves SealedKept (getStateWithoutRelayDb env getter shard) := by
  unfold getStateWithoutRelayDb
  cases getter <;> dsimp only
  -- a trusted getter's signature is checked first
  on_goal 2 => refine moves_ite (moves_bind (moves_throw _) fun _ => ?_) ?_
  all_goals
    refine moves_bind (moves_stateExists shard) fun b =>
      moves_ite (moves_bind (moves_modify fun w => rfl) fun _ => ?_) ?_
  all_goals exact moves_bind (moves_stateLoad env shard) fun _ => moves_throw _

/-- Neither branch of `get_state` writes the seal. -/
theorem getState_sealedKept (getter : Getter Acc H) (shard : H) (valueLen : Nat)
    (encodeValue : Option Bytes → Bytes) (d : Disk H A) :
    (resultState ((Ecall.getState getter shard valueLen encodeValue).run env d)).world.sealedRelay =
      d.world.sealedRelay := by
  rw [run_getState]
  cases d.relayDb
  · rw [if_neg Bool.false_ne_true, resultState_onWorld]
    exact moves_getStateWithoutRelayDb env getter shard d.world
  · rw [if_pos rfl, resultState_onWorld]
    exact (moves_getStateEcall env getter shard valueLen encodeValue d.world).1

end GetState

/-! ## §3. The invariant of the disk. -/

section Invariant

variable [DecidableEq H]

/-- **The invariant of the disk**: once `CHAIN_RELAY_DB` exists, it holds a light client that
    a run of relay calls from `LightValidation::new()` reaches, with one initial header. -/
def DiskInv (S : Substrate H A) (d : Disk H A) : Prop :=
  d.relayDb = true → ∃ genesis known, Reachable S (d.world.sealedRelay, ⟨[genesis], known⟩)

omit [DecidableEq H] in
/-- A light client with one initial header tracks relay `1` only, and answers for it. -/
theorem single_relay (S : Substrate H A) {v : LightValidation H A} {genesis : Header H}
    {known : List (Header H)} (h : Inv S ⟨[genesis], known⟩ v) :
    v.numRelays = 1 ∧ genesisHash v 1 = some (.ok (S.hash genesis)) ∧
      ∃ head, latestHeader v 1 = .ok head := by
  have hnum : v.numRelays = 1 := h.num_relays
  obtain ⟨r, hr⟩ := Option.isSome_iff_exists.1 ((h.keys 1).2 ⟨le_refl 1, hnum.ge⟩)
  obtain ⟨gen, hgen, hinv⟩ := h.relays 1 r hr
  -- relay `1` was started at `inits[0]`
  have hgen' : gen = genesis := by simpa using hgen.symm
  subst hgen'
  refine ⟨hnum, ?_, r.lastFinalizedBlockHeader, ?_⟩
  · simp [genesisHash, hr, hinv.genesis_hash]
  · simp [latestHeader, hr]

variable (env : Env H A Acc)

theorem diskInv_initChainRelay {d : Disk H A} (h : DiskInv env.S d)
    (header : Option (Header H)) (auth : Option (AuthorityList A))
    (proof : Option StorageProof) (latestHeaderLen : Nat) (encodeHeader : Header H → Bytes) :
    DiskInv env.S (resultState (initChainRelay env header auth proof latestHeaderLen encodeHeader d)) := by
  rcases initChainRelay_state env d header auth proof latestHeaderLen encodeHeader with
    hd | ⟨h', vs, p, hcheck, hd⟩
  · rw [hd]
    exact h
  · -- `init_validator` sealed `initialize_relay` on `LightValidation::new()`
    rw [hd]
    exact fun _ => ⟨h', [], reachable_initializeRelay_new env.S (initializeRelay_new_eq env.S hcheck)⟩

/-- **One ECALL keeps the invariant of the disk.** -/
theorem diskInv_step {d d' : Disk H A} (h : DiskInv env.S d) (hstep : EcallStep env d d') :
    DiskInv env.S d' := by
  obtain ⟨e, rfl⟩ := hstep
  cases e with
  | initChainRelay header auth proof latestHeaderLen encodeHeader =>
    exact diskInv_initChainRelay env h header auth proof latestHeaderLen encodeHeader
  | syncChainRelay blocks nonce extrinsicsSliceLen =>
    cases hdb : d.relayDb
    · -- no file: `unseal` fails before anything is written
      rw [run_syncChainRelay_of_missing d hdb]
      exact h
    · rw [run_syncChainRelay_of_found d hdb, resultState_onWorld]
      intro _
      obtain ⟨genesis, known, hreach⟩ := h hdb
      exact ⟨genesis, hreach.runsFrom env.S
        (syncChainRelay_runsFrom env blocks nonce extrinsicsSliceLen d.world)⟩
  | getState getter shard valueLen encodeValue =>
    -- the file and the seal both stay
    have hsealed := getState_sealedKept env getter shard valueLen encodeValue d
    have hdb : (resultState ((Ecall.getState getter shard valueLen encodeValue).run env d)).relayDb =
        d.relayDb := by
      rw [run_getState]
      split <;> rw [resultState_onWorld]
    intro hdb'
    obtain ⟨genesis, known, hreach⟩ := h (hdb ▸ hdb')
    exact ⟨genesis, known, by rw [hsealed]; exact hreach⟩

/-- **Every reachable disk satisfies the invariant.** -/
theorem diskInv_reachable {d : Disk H A} (hd : DiskReachable env d) : DiskInv env.S d :=
  Reach.invariant (P := DiskInv env.S)
    (fun d (hfresh : d.relayDb = false) hdb => absurd (hfresh.symm.trans hdb) (by decide))
    (fun _ _ h hstep => diskInv_step env h hstep) hd

end Invariant

/-! ## §4. What every run guarantees. -/

section Runs

variable [DecidableEq H] (env : Env H A Acc)

/-- **The sealed light client is a relay of the relay API, with one relay.**  On every disk a
    run of `init_chain_relay`, `sync_chain_relay` and `get_state` ECALLs reaches from a fresh
    enclave, with any arguments, any host and any way each ECALL ends: once `CHAIN_RELAY_DB`
    exists, the light client in it is reached from `LightValidation::new()` by relay calls
    with one initial header.  So it satisfies the relay chain invariant, tracks exactly relay
    `1`, and `genesis_hash(num_relays)` and `latest_header(num_relays)` answer without
    panicking. -/
theorem sealed_light_client_invariant {d : Disk H A} (hd : DiskReachable env d)
    (hdb : d.relayDb = true) :
    ∃ genesis known, Reachable env.S (d.world.sealedRelay, ⟨[genesis], known⟩) ∧
      Inv env.S ⟨[genesis], known⟩ d.world.sealedRelay ∧
      d.world.sealedRelay.numRelays = 1 ∧
      genesisHash d.world.sealedRelay 1 = some (.ok (env.S.hash genesis)) ∧
      ∃ head, latestHeader d.world.sealedRelay 1 = .ok head := by
  obtain ⟨genesis, known, hreach⟩ := diskInv_reachable env hd hdb
  have hinv : Inv env.S ⟨[genesis], known⟩ d.world.sealedRelay := reachable_inv env.S hreach
  exact ⟨genesis, known, hreach, hinv, single_relay env.S hinv⟩

/-- **`init_chain_relay` on a reachable disk.**  With the file there and the given header's
    hash the sealed genesis, it writes nothing and returns the sealed head; otherwise (no file,
    or another genesis) it checks the authority proof against the header's state root and
    either fails in place or seals a fresh light client whose one relay starts at the given
    header with the given set, dropping every header synced before.  The only panic left is
    the head not fitting the buffer. -/
theorem init_chain_relay_on_reachable {d : Disk H A} (hd : DiskReachable env d)
    (header : Header H) (auth : AuthorityList A) (proof : StorageProof) (latestHeaderLen : Nat)
    (encodeHeader : Header H → Bytes) :
    (d.relayDb = true → genesisHash d.world.sealedRelay 1 = some (.ok (env.S.hash header)) →
      ∃ head, latestHeader d.world.sealedRelay 1 = .ok head ∧
        initChainRelay env (some header) (some auth) (some proof) latestHeaderLen encodeHeader d =
          onWorld (writeSliceAndWhitespacePad latestHeaderLen (encodeHeader head)) d) ∧
    ((d.relayDb = true → genesisHash d.world.sealedRelay 1 ≠ some (.ok (env.S.hash header))) →
      initChainRelay env (some header) (some auth) (some proof) latestHeaderLen encodeHeader d =
        match checkValidatorSetProof env.S header.stateRoot proof auth with
        | .error _ => .error (.status .errorUnexpected) d
        | .ok () => onWorld (writeSliceAndWhitespacePad latestHeaderLen (encodeHeader header))
            ⟨{ d.world with sealedRelay := freshValidator env.S header auth }, true⟩) := by
  -- a fresh light client sealed, then its head written out
  have hfresh : (readOrInitValidator env header auth proof d = initValidator env header auth proof d) →
      initChainRelay env (some header) (some auth) (some proof) latestHeaderLen encodeHeader d =
        match checkValidatorSetProof env.S header.stateRoot proof auth with
        | .error _ => .error (.status .errorUnexpected) d
        | .ok () => onWorld (writeSliceAndWhitespacePad latestHeaderLen (encodeHeader header))
            ⟨{ d.world with sealedRelay := freshValidator env.S header auth }, true⟩ := by
    intro hinit
    rw [initChainRelay_decoded, run_bind_eq, hinit, initValidator_eq]
    cases checkValidatorSetProof env.S header.stateRoot proof auth <;> rfl
  constructor
  · intro hdb hgenesis
    obtain ⟨genesis, known, hreach⟩ := diskInv_reachable env hd hdb
    obtain ⟨hnum, -, head, hhead⟩ := single_relay env.S (reachable_inv env.S hreach)
    refine ⟨head, hhead, ?_⟩
    have hgenesis' : genesisHash d.world.sealedRelay d.world.sealedRelay.numRelays =
        some (.ok (env.S.hash header)) := by rw [hnum]; exact hgenesis
    rw [initChainRelay_decoded, run_bind_eq,
      readOrInitValidator_of_genesis env header auth proof d hdb hgenesis', if_pos rfl, hnum, hhead]
  · intro hother
    cases hdb : d.relayDb with
    | false => exact hfresh (readOrInitValidator_of_missing env header auth proof d hdb)
    | true =>
      obtain ⟨genesis, known, hreach⟩ := diskInv_reachable env hd hdb
      obtain ⟨hnum, hgen, -⟩ := single_relay env.S (reachable_inv env.S hreach)
      have hgen' : genesisHash d.world.sealedRelay d.world.sealedRelay.numRelays =
          some (.ok (env.S.hash genesis)) := by rw [hnum]; exact hgen
      -- the sealed genesis is another header's
      have hne : env.S.hash genesis ≠ env.S.hash header := fun heq =>
        hother hdb (by rw [hgen, heq])
      apply hfresh
      rw [readOrInitValidator_of_genesis env header auth proof d hdb hgen', if_neg hne]

/-- One ECALL other than `init_chain_relay`. -/
def SyncStep (d d' : Disk H A) : Prop :=
  (∃ blocks nonce extrinsicsSliceLen,
      resultState ((Ecall.syncChainRelay blocks nonce extrinsicsSliceLen : Ecall H A Acc).run
        env d) = d') ∨
    ∃ getter shard valueLen encodeValue,
      resultState ((Ecall.getState getter shard valueLen encodeValue).run env d) = d'

/-- One such ECALL from a reachable disk: the sealed light client keeps its relay, extended. -/
theorem keeps_syncStep {d d' : Disk H A} (hd : DiskReachable env d) (hstep : SyncStep env d d') :
    Keeps d.world.sealedRelay d'.world.sealedRelay := by
  rcases hstep with ⟨blocks, nonce, extrinsicsSliceLen, rfl⟩ | ⟨getter, shard, valueLen, encodeValue, rfl⟩
  · cases hdb : d.relayDb
    · rw [run_syncChainRelay_of_missing d hdb]
      exact keeps_refl _
    · -- a run of submissions from a reachable relay
      rw [run_syncChainRelay_of_found d hdb, resultState_onWorld]
      obtain ⟨genesis, known, hreach⟩ := diskInv_reachable env hd hdb
      obtain ⟨known', hrun⟩ := syncChainRelay_runsFrom env blocks nonce extrinsicsSliceLen d.world
        ⟨[genesis], known⟩
      exact keeps_of_run env.S hreach hrun
  · rw [getState_sealedKept env getter shard valueLen encodeValue d]
    exact keeps_refl _

/-- A disk that such ECALLs reach from a reachable one is reachable. -/
theorem diskReachable_of_syncs {d : Disk H A} (h : Reach (DiskReachable env) (SyncStep env) d) :
    DiskReachable env d := by
  obtain ⟨d₀, hd₀, hrun⟩ := h
  refine Reach.of_run hd₀ (Relation.ReflTransGen.mono (fun a b hab => ?_) _ _ hrun)
  rcases hab with ⟨blocks, nonce, extrinsicsSliceLen, hab⟩ | ⟨getter, shard, valueLen, encodeValue, hab⟩
  · exact ⟨_, hab⟩
  · exact ⟨_, hab⟩

/-- **While the enclave syncs, finality only grows.**  Along every run of `sync_chain_relay`
    and `get_state` ECALLs from a reachable disk, with any arguments, any host and any way
    each ECALL ends, every relay of the sealed light client stays tracked and its finalized
    hashes (`header_hashes`) and imported hashes (`header_hashes ++ unjustified_headers`)
    only grow at the end: no finalized header is ever dropped, reordered or replaced.  Only
    an `init_chain_relay` with another genesis resets them. -/
theorem sealed_finality_only_grows {d d' : Disk H A} (hd : DiskReachable env d)
    (hrun : Relation.ReflTransGen (SyncStep env) d d') :
    Keeps d.world.sealedRelay d'.world.sealedRelay :=
  Reach.run_rel (R := fun d d' => Keeps d.world.sealedRelay d'.world.sealedRelay)
    (fun _ => keeps_refl _)
    (fun d₁ d₂ d₃ (h₁ : Keeps d₁.world.sealedRelay d₂.world.sealedRelay)
      (h₂ : Keeps d₂.world.sealedRelay d₃.world.sealedRelay) => h₁.trans h₂)
    (fun _ _ hreach hstep => keeps_syncStep env (diskReachable_of_syncs env hreach) hstep)
    (Reach.base hd) hrun

end Runs

/-! ## §5. A run. -/

/-- `toyEnv` with a substrate whose authority proofs all check. -/
def relayEnv : Env Nat Nat Nat := { toyEnv with S := Invariant.toySubstrate }

/-- A fresh enclave: no `CHAIN_RELAY_DB` yet. -/
def freshDisk : Disk Nat Nat := ⟨toyWorld, false⟩

theorem freshDisk_reachable : DiskReachable relayEnv freshDisk := Reach.base rfl

/-- The first `init_chain_relay`, at header `0`, with a 64-byte buffer. -/
def initDisk : Disk Nat Nat :=
  resultState ((Ecall.initChainRelay (some (toyHeader 0 0)) (some []) (some []) 64
    (fun _ => [])).run relayEnv freshDisk)

theorem initDisk_reachable : DiskReachable relayEnv initDisk :=
  Reach.tail freshDisk_reachable ⟨_, rfl⟩

/-- After the first `init_chain_relay` the file exists and holds one relay at header `0`. -/
theorem sealed_light_client_after_init :
    DiskReachable relayEnv initDisk ∧ initDisk.relayDb = true ∧
      ∃ genesis known, Reachable relayEnv.S (initDisk.world.sealedRelay, ⟨[genesis], known⟩) ∧
        Inv relayEnv.S ⟨[genesis], known⟩ initDisk.world.sealedRelay ∧
        initDisk.world.sealedRelay.numRelays = 1 ∧
        genesisHash initDisk.world.sealedRelay 1 = some (.ok (relayEnv.S.hash genesis)) ∧
        ∃ head, latestHeader initDisk.world.sealedRelay 1 = .ok head :=
  ⟨initDisk_reachable, rfl, sealed_light_client_invariant relayEnv initDisk_reachable rfl⟩

/-- A second `init_chain_relay`, at header `5` over hash `9`: the sealed genesis is header
    `0`'s, so the light client is replaced by one at header `5`. -/
theorem init_chain_relay_reroots :
    DiskReachable relayEnv initDisk ∧
    (initDisk.relayDb = true →
      genesisHash initDisk.world.sealedRelay 1 = some (.ok (relayEnv.S.hash (toyHeader 5 9))) →
      ∃ head, latestHeader initDisk.world.sealedRelay 1 = .ok head ∧
        initChainRelay relayEnv (some (toyHeader 5 9)) (some []) (some []) 64 (fun _ => [])
            initDisk =
          onWorld (writeSliceAndWhitespacePad 64 ((fun _ => []) head)) initDisk) ∧
    ((initDisk.relayDb = true →
        genesisHash initDisk.world.sealedRelay 1 ≠ some (.ok (relayEnv.S.hash (toyHeader 5 9)))) →
      initChainRelay relayEnv (some (toyHeader 5 9)) (some []) (some []) 64 (fun _ => [])
          initDisk =
        match checkValidatorSetProof relayEnv.S (toyHeader 5 9).stateRoot [] [] with
        | .error _ => .error (.status .errorUnexpected) initDisk
        | .ok () => onWorld (writeSliceAndWhitespacePad 64 ((fun _ => []) (toyHeader 5 9)))
            ⟨{ initDisk.world with sealedRelay := freshValidator relayEnv.S (toyHeader 5 9) [] },
              true⟩) :=
  ⟨initDisk_reachable,
    init_chain_relay_on_reachable relayEnv initDisk_reachable (toyHeader 5 9) [] [] 64 fun _ => []⟩

/-- One `sync_chain_relay` of header `1` after the first `init_chain_relay`. -/
theorem finality_grows_after_sync :
    DiskReachable relayEnv initDisk ∧
      Relation.ReflTransGen (SyncStep relayEnv) initDisk
        (resultState ((Ecall.syncChainRelay [⟨⟨toyHeader 1 0, []⟩, none⟩] 0 64 :
          Ecall Nat Nat Nat).run relayEnv initDisk)) ∧
      Keeps initDisk.world.sealedRelay
        (resultState ((Ecall.syncChainRelay [⟨⟨toyHeader 1 0, []⟩, none⟩] 0 64 :
          Ecall Nat Nat Nat).run relayEnv initDisk)).world.sealedRelay :=
  have hrun : Relation.ReflTransGen (SyncStep relayEnv) initDisk
      (resultState ((Ecall.syncChainRelay [⟨⟨toyHeader 1 0, []⟩, none⟩] 0 64 :
        Ecall Nat Nat Nat).run relayEnv initDisk)) :=
    .single (.inl ⟨_, _, _, rfl⟩)
  ⟨initDisk_reachable, hrun, sealed_finality_only_grows relayEnv initDisk_reachable hrun⟩

end EncointerWorker.Enclave
