import EncointerWorker.Enclave.Frame
import EncointerWorker.Stf.Encoding
import EncointerWorker.Stf.Keys
import EncointerWorker.Lib.Utf8

/-!
  EncointerWorker.Enclave.Phase — what a block import writes to each shard's state
  (`update_states` in `enclave/src/lib.rs`, `Stf::update_storage` in `stf/src/sgx.rs`).

  `update_states(header)` requests the global keys of the block (the shard list and the
  scheduler's keys) and, for every shard the chain lists, the shard's own keys; it applies
  the per-shard map, then the global map, to the shard's state and writes it.  The maps are
  what the verified answers make, not what was requested.  Under an HONEST host, which
  answers every request with exactly the requested keys and their proven values, every
  listed shard ends with the chain's values of the global keys, and the phase hook runs
  when the chain's `CurrentPhase` differs from the shard's and decodes.  A host that answers
  nothing makes `update_states` return `Ok` with no shard touched.

  Main results:
    * `requestVerified_honest` — under an honest host a storage request returns the chain's
      values of exactly the requested keys.
    * `updateStates_honest`, `updateShard_honest` — an honest import runs the loop over the
      listed shards, each step writing the loaded state with both maps and the block number.
    * `phaseSynced_updateStates` — after an import, every listed shard's state holds the
      chain's schedule at the header.
    * `update_storage_hook_on_phase_change` — the spec of `update_storage`, and when an
      honest import runs the hook; `withheld_phase_skips_hook` — a host that answers
      nothing: `Ok`, no shard written, no hook, though the chain's phase moved.
-/

namespace EncointerWorker.Enclave

open EncointerWorker.Relay EncointerWorker.Stf EncointerWorker.Lib.AssocMap EncointerWorker.Lib
open EncointerWorker.Lib.Keystream

variable {H A Acc : Type}

/-! ## §1. The state a shard loads. -/

section Load

variable [DecidableEq H]

/-- The world after `if !state::exists(shard) { state::init_shard(shard) }`. -/
def World.ensureFile (w : World H A) (shard : H) : World H A :=
  if (w.shardFiles shard).isSome then w else w.setFile shard []

@[simp] theorem ensureFile_aesKeyIv (w : World H A) (shard : H) :
    (w.ensureFile shard).aesKeyIv = w.aesKeyIv := by
  unfold World.ensureFile
  split <;> rfl

/-- A shard with a file is left as it is. -/
theorem ensureFile_of_some {w : World H A} {shard : H} {bytes : Bytes}
    (h : w.shardFiles shard = some bytes) : w.ensureFile shard = w := by
  simp [World.ensureFile, h]

/-- A shard without a file gets an empty one. -/
theorem ensureFile_of_none {w : World H A} {shard : H} (h : w.shardFiles shard = none) :
    w.ensureFile shard = w.setFile shard [] := by
  simp [World.ensureFile, h]

theorem ensureFile_shardFiles_self (w : World H A) (shard : H) :
    (w.ensureFile shard).shardFiles shard = some ((w.shardFiles shard).getD []) := by
  unfold World.ensureFile
  cases h : w.shardFiles shard with
  | none => simp
  | some bytes => simp [h]

theorem ensureFile_shardFiles_ne (w : World H A) {shard s : H} (hs : s ≠ shard) :
    (w.ensureFile shard).shardFiles s = w.shardFiles s := by
  unfold World.ensureFile
  split
  · rfl
  · simp [World.setFile, hs]

theorem setFile_shardFiles_ne (w : World H A) {shard s : H} (hs : s ≠ shard) (bytes : Bytes) :
    (w.setFile shard bytes).shardFiles s = w.shardFiles s := by
  simp [World.setFile, hs]

variable (env : Env H A Acc)

/-- Shard `s` loads `st` in `w`: `st` is what `state::load` reads once a missing file has been
    created empty, as both `update_states` and `handle_call_worker_xt` do. -/
def Loads (s : H) (st : State) (w : World H A) : Prop :=
  stateLoad env s (w.ensureFile s) = .ok st (w.ensureFile s)

variable {env}

/-- What a shard loads depends on its file and the sealed key only. -/
theorem loads_congr {s : H} {st : State} {w w' : World H A}
    (hfile : w'.shardFiles s = w.shardFiles s) (hkey : w'.aesKeyIv = w.aesKeyIv)
    (h : Loads env s st w) : Loads env s st w' := by
  unfold Loads at h ⊢
  have hfile' : (w'.ensureFile s).shardFiles s = (w.ensureFile s).shardFiles s := by
    rw [ensureFile_shardFiles_self, ensureFile_shardFiles_self, hfile]
  have hkey' : (w'.ensureFile s).aesKeyIv = (w.ensureFile s).aesKeyIv := by
    rw [ensureFile_aesKeyIv, ensureFile_aesKeyIv, hkey]
  exact stateLoad_congr hfile' hkey' h

/-- A file `state::write` wrote loads the written state. -/
theorem loads_of_ciphertext (hblock : BlockCipher env) (hcodec : StateCodec env) {s : H}
    {st : State} {w : World H A} (hkey : w.aesKeyIv.length = 32)
    (hfile : w.shardFiles s = some (stateCiphertext env w.aesKeyIv st)) : Loads env s st w := by
  have hens := ensureFile_of_some hfile
  unfold Loads
  rw [hens]
  exact stateLoad_of_ciphertext hblock hkey hfile (hcodec.decode_encode st) (hcodec.encode_ne_nil st)

/-- A shard without a file loads a fresh state. -/
theorem loads_initState {s : H} {w : World H A} (hfile : w.shardFiles s = none) :
    Loads env s (initState env.C) w := by
  have hens := ensureFile_of_none hfile
  unfold Loads
  rw [hens]
  simp only [stateLoad, stateRead, run_bind, run_get, setFile_same, run_pure]

/-- Under a well-formed sealed key every shard loads some state. -/
theorem exists_loads {w : World H A} (hkey : w.aesKeyIv.length = 32) (s : H) :
    ∃ st, Loads env s st w := by
  unfold Loads
  have hkey' : (w.ensureFile s).aesKeyIv.length = 32 := by rw [ensureFile_aesKeyIv]; exact hkey
  -- the file after the check: an empty one loads a fresh state, other bytes decrypt
  rcases hbytes : (w.shardFiles s).getD [] with _ | ⟨b, bs⟩
  · refine ⟨initState env.C, ?_⟩
    simp only [stateLoad, stateRead, run_bind, run_get, ensureFile_shardFiles_self, hbytes,
      run_pure]
  · have hfile : (w.ensureFile s).shardFiles s = some (b :: bs) := by
      rw [ensureFile_shardFiles_self, hbytes]
    have hread : stateRead env s (w.ensureFile s) =
        .ok (applyKeystream (env.aesEncryptBlock ((w.ensureFile s).aesKeyIv.take 16))
          ((w.ensureFile s).aesKeyIv.drop 16) (b :: bs)) (w.ensureFile s) :=
      stateRead_of_file hkey' hfile (List.cons_ne_nil b bs)
    rcases hv : applyKeystream (env.aesEncryptBlock ((w.ensureFile s).aesKeyIv.take 16))
        ((w.ensureFile s).aesKeyIv.drop 16) (b :: bs) with _ | ⟨c, cs⟩
    · refine ⟨initState env.C, ?_⟩
      simp only [stateLoad, run_bind, hread, hv, run_pure]
    · rw [hv] at hread
      exact ⟨_, stateLoad_of_read hread (List.cons_ne_nil c cs)⟩

end Load

/-! ## §2. An honest host. -/

section Host

variable (env : Env H A Acc) (chain : Header H → Bytes → Option Bytes)

/-- The update map of the chain's values, at `header`, of the keys `requested`. -/
def chainValues (header : Header H) (requested : List Bytes) : UpdateMap :=
  ofList (requested.map fun key => (key, chain header key))

/-- **An honest host** answers every storage request with exactly the requested keys, in the
    order asked, each with its value in the chain's state at the header (`chain header`) and
    a proof of that value under the header's state root. -/
def HonestHost : Prop :=
  ∀ (hist : List (List (WorkerRequest H))) (requested : List Bytes) (header : Header H),
    ∃ responses, env.host hist (requested.map fun key =>
        WorkerRequest.chainStorage key (some (env.S.hash header))) = .ok responses ∧
      responses.map WorkerResponse.entry = requested.map (fun key => (key, chain header key)) ∧
      ∀ r ∈ responses, r.Proven env.S header.stateRoot

variable {chain}

theorem nodupKeys_chainValues (header : Header H) (requested : List Bytes) :
    NodupKeys (chainValues chain header requested) :=
  nodupKeys_ofList _

/-- Setting the chain's values: a requested key reads the chain, another one stays. -/
theorem get_setAll_chainValues (header : Header H) (requested : List Bytes) (ext : State)
    (k : Bytes) : get (setAll ext (chainValues chain header requested)) k =
      if k ∈ requested then chain header k else get ext k := by
  rw [get_setAll (nodupKeys_chainValues header requested)]
  unfold chainValues
  by_cases hk : k ∈ requested
  · have hmem := (mem_keys_ofList_graph (chain header) requested k).mpr hk
    rw [if_pos hmem, if_pos hk, get_ofList_graph, if_pos hk]
    rfl
  · have hmem : k ∉ keys (ofList (requested.map fun key => (key, chain header key))) :=
      fun h => hk ((mem_keys_ofList_graph (chain header) requested k).mp h)
    rw [if_neg hmem, if_neg hk]

/-- The same through `update_storage`, for a key the hook leaves alone. -/
theorem get_updateStorage_chainValues {k : Bytes} (hk : env.R.Keeps k) (header : Header H)
    (requested : List Bytes) (ext : State) :
    get (updateStorage env.C env.R ext (chainValues chain header requested)) k =
      if k ∈ requested then chain header k else get ext k := by
  rw [get_updateStorage env.C env.R (nodupKeys_chainValues header requested) hk,
    ← get_setAll (nodupKeys_chainValues header requested), get_setAll_chainValues]

/-- **A request to an honest host** returns the chain's values of the requested keys, and
    only logs the request and the header's use. -/
theorem requestVerified_honest (hhost : HonestHost env chain) (requested : List Bytes)
    (header : Header H) (w : World H A) :
    ∃ w', requestVerified env requested header w = .ok (chainValues chain header requested) w' ∧
      w'.shardFiles = w.shardFiles ∧ w'.aesKeyIv = w.aesKeyIv := by
  obtain ⟨responses, hanswer, hentries, hproven⟩ := hhost w.requests requested header
  have hverify : verifyWorkerResponses env.S responses header =
      .ok (chainValues chain header requested) := by
    unfold verifyWorkerResponses chainValues ofList
    rw [verifyResponsesFrom_of_proven [] hproven, hentries]
  refine ⟨{ w with
      requests := w.requests ++
        [requested.map fun key => WorkerRequest.chainStorage key (some (env.S.hash header))],
      trace := w.trace ++ [.provedStorage header] }, ?_, rfl, rfl⟩
  simp only [requestVerified, workerRequest, record, run_bind, run_get, run_set, hanswer,
    liftStatus, run_pure, run_modify, hverify]

end Host

/-! ## §3. An honest import. -/

section Import

variable [DecidableEq H] (env : Env H A Acc) (chain : Header H → Bytes → Option Bytes)

/-- The state `update_states` writes for a shard that loaded `st`: the per-shard map, then the
    global map, then the block number. -/
def syncedState (st : State) (perShardUpdateMap updateMap : UpdateMap) (number : Nat) : State :=
  updateBlockNumber env.C
    (updateStorage env.C env.R (updateStorage env.C env.R st perShardUpdateMap) updateMap) number

/-- Shard `s` holds the chain's schedule at `header`: the state it loads has the chain's
    `CurrentPhase` and `CurrentCeremonyIndex`; and the sealed key is well formed. -/
structure PhaseSynced (header : Header H) (s : H) (w : World H A) : Prop where
  key : w.aesKeyIv.length = 32
  synced : ∃ st, Loads env s st w ∧ ∀ k ∈ scheduleKeys env.C, get st k = chain header k

variable {env chain}

/-- `update_states`' step for a shard runs its sync on the shard's file, created empty if it
    was missing. -/
theorem updateShard_eq (header : Header H) (updateMap : UpdateMap) (s : H) (w : World H A) :
    updateShard env header updateMap s w = (do
      let perShardUpdateMap ← requestVerified env (storageHashesToUpdatePerShard env.C s) header
      let state ← stateLoad env s
      let _ ← stateWrite env (syncedState env state perShardUpdateMap updateMap header.number) s
      pure ()) (w.ensureFile s) := by
  -- a missing file is created first; both branches then run the same sync
  cases hfile : w.shardFiles s with
  | none =>
    have hens := ensureFile_of_none hfile
    rw [hens]
    simp only [updateShard, syncedState, stateExists, initShard, run_bind, run_get, run_modify,
      run_pure, hfile, Option.isSome_none, Bool.not_false, if_true]
  | some bytes =>
    have hens := ensureFile_of_some hfile
    rw [hens]
    simp only [updateShard, syncedState, stateExists, run_bind, run_get, run_pure, hfile,
      Option.isSome_some, Bool.not_true, Bool.false_eq_true, if_false]

/-- **One step of an honest import.**  Shard `s` loads `st`; the step writes `st` with the
    chain's per-shard values, then `updateMap`, then the block number, and writes no other
    shard. -/
theorem updateShard_honest (hhost : HonestHost env chain) (header : Header H)
    (updateMap : UpdateMap) {s : H} {st : State} {w : World H A}
    (hkey : w.aesKeyIv.length = 32) (hload : Loads env s st w) :
    ∃ W : World H A, W.shardFiles = (w.ensureFile s).shardFiles ∧ W.aesKeyIv = w.aesKeyIv ∧
      updateShard env header updateMap s w = .ok () (W.setFile s (stateCiphertext env w.aesKeyIv
        (syncedState env st (chainValues chain header (storageHashesToUpdatePerShard env.C s))
          updateMap header.number))) := by
  obtain ⟨W, hreq, hfiles, hkeyW⟩ := requestVerified_honest env hhost
    (storageHashesToUpdatePerShard env.C s) header (w.ensureFile s)
  have hkey' : W.aesKeyIv = w.aesKeyIv := hkeyW.trans (ensureFile_aesKeyIv w s)
  -- the request only logs: the shard loads in `W` what it loads after the check
  have hloadW : stateLoad env s W = .ok st W := stateLoad_congr (by rw [hfiles]) hkeyW hload
  refine ⟨W, hfiles, hkey', ?_⟩
  rw [updateShard_eq]
  simp only [run_bind, hreq, hloadW, stateWrite_eq_ciphertext (hkey' ▸ hkey), run_pure, hkey']

/-- **An honest import's loop.**  When the chain lists `shards` at the header,
    `update_states` syncs the global keys and runs its step for every listed shard in
    order, with the chain's values of the global keys. -/
theorem updateStates_honest (hhost : HonestHost env chain) (header : Header H) (w : World H A)
    {bytes : Bytes} {shards : List H} (hlisted : chain header (shardsKeyHash env.C) = some bytes)
    (hdecode : env.decodeShards bytes = some shards) :
    ∃ W : World H A, W.shardFiles = w.shardFiles ∧ W.aesKeyIv = w.aesKeyIv ∧
      updateStates env header w = updateShards env header
        (chainValues chain header (storageHashesToUpdateOnBlock env.C)) shards W := by
  obtain ⟨W, hreq, hfiles, hkey⟩ := requestVerified_honest env hhost
    (storageHashesToUpdateOnBlock env.C) header w
  have hshards : get (chainValues chain header (storageHashesToUpdateOnBlock env.C))
      (shardsKeyHash env.C) = some (some bytes) := by
    unfold chainValues
    rw [get_ofList_graph, if_pos (by simp [storageHashesToUpdateOnBlock]), hlisted]
  have hkeys : (storageHashesToUpdateOnBlock env.C).isEmpty = false := rfl
  refine ⟨W, hfiles, hkey, ?_⟩
  unfold updateStates
  simp only [hkeys, Bool.false_eq_true, if_false, run_bind, hreq, hshards, hdecode, liftStatus,
    run_pure]

/-- An honest import's loop returns, and keeps the sealed key.  By induction on the shards:
    each step loads what the shard holds and writes it back under the same key. -/
theorem updateShards_honest_keeps (hhost : HonestHost env chain) (header : Header H)
    (updateMap : UpdateMap) :
    ∀ (shards : List H) {w : World H A}, w.aesKeyIv.length = 32 →
      ∃ w', updateShards env header updateMap shards w = .ok () w' ∧ w'.aesKeyIv = w.aesKeyIv
  | [], w, _ => ⟨w, rfl, rfl⟩
  | t :: shards, w, hkey => by
    obtain ⟨st, hload⟩ := exists_loads hkey t
    obtain ⟨W, -, hkeyW, hstep⟩ := updateShard_honest hhost header updateMap hkey hload
    have hkey' : (W.setFile t (stateCiphertext env w.aesKeyIv (syncedState env st
        (chainValues chain header (storageHashesToUpdatePerShard env.C t)) updateMap
        header.number))).aesKeyIv = w.aesKeyIv := by
      rw [setFile_aesKeyIv, hkeyW]
    obtain ⟨w', hrest, hkeyw'⟩ :=
      updateShards_honest_keeps hhost header updateMap shards (hkey'.symm ▸ hkey)
    exact ⟨w', by rw [updateShards, run_bind, hstep]; exact hrest, hkeyw'.trans hkey'⟩

/-- An honest import's loop returns. -/
theorem updateShards_honest_ok (hhost : HonestHost env chain) (header : Header H)
    (updateMap : UpdateMap) (shards : List H) {w : World H A} (hkey : w.aesKeyIv.length = 32) :
    ∃ w', updateShards env header updateMap shards w = .ok () w' :=
  let ⟨w', hrun, _⟩ := updateShards_honest_keeps hhost header updateMap shards hkey
  ⟨w', hrun⟩

/-- **An honest import returns**, when the chain's currency list decodes. -/
theorem updateStates_honest_ok (hhost : HonestHost env chain) (header : Header H)
    {w : World H A} (hkey : w.aesKeyIv.length = 32) {bytes : Bytes} {shards : List H}
    (hlisted : chain header (shardsKeyHash env.C) = some bytes)
    (hdecode : env.decodeShards bytes = some shards) :
    ∃ w₁, updateStates env header w = .ok () w₁ := by
  obtain ⟨W, -, hkeyW, heq⟩ := updateStates_honest hhost header w hlisted hdecode
  rw [heq]
  exact updateShards_honest_ok hhost header _ shards (hkeyW ▸ hkey)

omit [DecidableEq H] in
/-- **The schedule after an honest step**: the global map brings the chain's values of the
    scheduler's keys, and neither the hook nor the block number writes them. -/
theorem get_syncedState_schedule (hp : PrefixesApart env.C)
    (hkeeps : ∀ k ∈ scheduleKeys env.C, env.R.Keeps k) (header : Header H) (st : State)
    (perShardUpdateMap : UpdateMap) (number : Nat) {k : Bytes} (hk : k ∈ scheduleKeys env.C) :
    get (syncedState env st perShardUpdateMap
      (chainValues chain header (storageHashesToUpdateOnBlock env.C)) number) k = chain header k := by
  have hsynced : k ∈ storageHashesToUpdateOnBlock env.C := by
    -- both schedule keys are synced on every block
    obtain ⟨item, hitem, rfl⟩ := exists_item_of_mem_scheduleKeys hk
    rcases hitem with rfl | rfl <;> simp [storageHashesToUpdateOnBlock, currentPhaseKey]
  unfold syncedState updateBlockNumber
  rw [get_insert_ne _ _ (scheduleKey_ne_numberKey hp hk),
    get_updateStorage_chainValues env (hkeeps k hk), if_pos hsynced]

/-- A shard's schedule depends on its file and the sealed key only. -/
theorem phaseSynced_congr {header : Header H} {s : H} {w w' : World H A}
    (hfile : w'.shardFiles s = w.shardFiles s) (hkey : w'.aesKeyIv = w.aesKeyIv)
    (h : PhaseSynced env chain header s w) : PhaseSynced env chain header s w' := by
  obtain ⟨hk, st, hload, hsched⟩ := h
  exact ⟨hkey ▸ hk, st, loads_congr hfile hkey hload, hsched⟩

/-- Writing a state that holds the chain's schedule syncs the shard. -/
theorem phaseSynced_write (hblock : BlockCipher env) (hcodec : StateCodec env)
    {header : Header H} {s : H} {st : State} {w : World H A} (hkey : w.aesKeyIv.length = 32)
    (hsched : ∀ k ∈ scheduleKeys env.C, get st k = chain header k) :
    PhaseSynced env chain header s (w.setFile s (stateCiphertext env w.aesKeyIv st)) :=
  ⟨hkey, st, loads_of_ciphertext hblock hcodec hkey (setFile_same w s _), hsched⟩

section Synced

variable (hhost : HonestHost env chain) (hp : PrefixesApart env.C)
  (hkeeps : ∀ k ∈ scheduleKeys env.C, env.R.Keeps k) (hblock : BlockCipher env)
  (hcodec : StateCodec env)
include hhost hp hkeeps hblock hcodec

/-- **The step lemma**: a step of an honest import syncs its own shard and keeps every other
    shard as it was. -/
theorem phaseSynced_updateShard (header : Header H) {t : H} {w w' : World H A}
    (hkey : w.aesKeyIv.length = 32)
    (hrun : updateShard env header (chainValues chain header (storageHashesToUpdateOnBlock env.C))
      t w = .ok () w')
    (s : H) (hs : s = t ∨ PhaseSynced env chain header s w) : PhaseSynced env chain header s w' := by
  obtain ⟨st, hload⟩ := exists_loads hkey t
  obtain ⟨W, hfiles, hkeyW, hstep⟩ := updateShard_honest hhost header _ hkey hload
  rw [hstep] at hrun
  injection hrun with _ hw'
  subst hw'
  by_cases hst : s = t
  · -- the step's own shard: the written state has the chain's schedule
    subst hst
    have hsched : ∀ k ∈ scheduleKeys env.C, get (syncedState env st
        (chainValues chain header (storageHashesToUpdatePerShard env.C s))
        (chainValues chain header (storageHashesToUpdateOnBlock env.C)) header.number) k =
          chain header k :=
      fun k hk => get_syncedState_schedule hp hkeeps header st _ _ hk
    have hsync := phaseSynced_write hblock hcodec (s := s) (w := W) (hkeyW ▸ hkey) hsched
    rwa [hkeyW] at hsync
  · -- another shard: its file and the key stay
    rcases hs with hst' | hsync
    · exact absurd hst' hst
    · refine phaseSynced_congr ?_ (by rw [setFile_aesKeyIv, hkeyW]) hsync
      rw [setFile_shardFiles_ne _ hst, hfiles, ensureFile_shardFiles_ne _ hst]

/-- **The run lemma** for `update_states`' loop: after it every shard of the list is synced,
    and every shard synced before stays synced.  By induction on the list, with
    `phaseSynced_updateShard` as the step. -/
theorem phaseSynced_updateShards (header : Header H) :
    ∀ (shards : List H) {w w' : World H A}, w.aesKeyIv.length = 32 →
      updateShards env header (chainValues chain header (storageHashesToUpdateOnBlock env.C))
        shards w = .ok () w' →
      ∀ s, (s ∈ shards ∨ PhaseSynced env chain header s w) → PhaseSynced env chain header s w'
  | [], w, w', _, hrun, s, hs => by
    simp only [updateShards, run_pure, EStateM.Result.ok.injEq, true_and] at hrun
    subst hrun
    rcases hs with hmem | hsync
    · simp at hmem
    · exact hsync
  | t :: shards, w, w', hkey, hrun, s, hs => by
    obtain ⟨⟨⟩, w₁, hstep, hrest⟩ := bind_eq_ok hrun
    have hsync₁ := phaseSynced_updateShard hhost hp hkeeps hblock hcodec header hkey hstep
    refine phaseSynced_updateShards header shards (hsync₁ t (.inl rfl)).key hrest s ?_
    -- the head shard is synced by the step; a later one is left to the rest of the loop
    rcases hs with hmem | hsync
    · rcases List.mem_cons.mp hmem with rfl | hmem
      · exact .inr (hsync₁ s (.inl rfl))
      · exact .inl hmem
    · exact .inr (hsync₁ s (.inr hsync))

/-- **After an honest import every listed shard holds the chain's schedule at the header.** -/
theorem phaseSynced_updateStates {header : Header H} {w w₁ : World H A}
    (hkey : w.aesKeyIv.length = 32) (hrun : updateStates env header w = .ok () w₁)
    {bytes : Bytes} {shards : List H} (hlisted : chain header (shardsKeyHash env.C) = some bytes)
    (hdecode : env.decodeShards bytes = some shards) {s : H} (hs : s ∈ shards) :
    PhaseSynced env chain header s w₁ := by
  obtain ⟨W, -, hkeyW, heq⟩ := updateStates_honest hhost header w hlisted hdecode
  rw [heq] at hrun
  exact phaseSynced_updateShards hhost hp hkeeps hblock hcodec header shards (hkeyW ▸ hkey) hrun s
    (.inl hs)

end Synced

end Import

/-! ## §4. The phase hook. -/

section Hook

variable [DecidableEq H] {env : Env H A Acc} {chain : Header H → Bytes → Option Bytes}

omit [DecidableEq H] in
/-- The per-shard map brings no `CurrentPhase`: its `update_storage` is the set/clear loop. -/
theorem updateStorage_perShard (hp : PrefixesApart env.C) (header : Header H) (s : H)
    (st : State) :
    updateStorage env.C env.R st (chainValues chain header (storageHashesToUpdatePerShard env.C s)) =
      setAll st (chainValues chain header (storageHashesToUpdatePerShard env.C s)) := by
  apply updateStorage_of_not_mem
  unfold chainValues
  rw [mem_keys_ofList_graph]
  exact scheduleKey_not_mem_perShard hp s (by simp [scheduleKeys])

omit [DecidableEq H] in
/-- **When an honest import runs the hook.**  The per-shard map keeps the shard's
    `CurrentPhase` and the global map brings the chain's: the global map's `update_storage`
    runs the hook, with `phase`, exactly when the chain's value is `Some(v)`, differs from the
    shard's, and decodes to `phase`. -/
theorem phaseChange_import (hp : PrefixesApart env.C) (header : Header H) (s : H) (st : State)
    (phase : CeremonyPhaseType) :
    phaseChange env.C (setAll st (chainValues chain header (storageHashesToUpdatePerShard env.C s)))
        (chainValues chain header (storageHashesToUpdateOnBlock env.C)) = some phase ↔
      ∃ v, chain header (currentPhaseKey env.C) = some v ∧
        get st (currentPhaseKey env.C) ≠ some v ∧ CeremonyPhaseType.decode v = some phase := by
  have hcp : currentPhaseKey env.C ∈ scheduleKeys env.C := by simp [scheduleKeys]
  have hglobal : get (chainValues chain header (storageHashesToUpdateOnBlock env.C))
      (currentPhaseKey env.C) = some (chain header (currentPhaseKey env.C)) := by
    unfold chainValues
    rw [get_ofList_graph, if_pos (by simp [storageHashesToUpdateOnBlock])]
  have hstored : get (setAll st (chainValues chain header (storageHashesToUpdatePerShard env.C s)))
      (currentPhaseKey env.C) = get st (currentPhaseKey env.C) := by
    rw [get_setAll_chainValues, if_neg (scheduleKey_not_mem_perShard hp s hcp)]
  rw [phaseChange_eq_some_iff, hglobal, hstored]
  simp only [Option.some.injEq]

/-- **`update_storage` and the phase hook.**  For every state and every update map with
    distinct keys: `Some(v)` sets, `None` clears, other keys stay; then the hook runs once,
    with the phase `phaseChange` names, or not at all; and `phaseChange` names `phase` exactly
    when the map brings `Some(v)` for `CurrentPhase`, `v` differs from the stored value and
    decodes to `phase`.  Under an honest host, an import through `update_states` runs the step
    for each shard the chain lists; the step writes the shard's loaded state with the
    per-shard map (no hook), the global map and the block number; and the hook runs there
    exactly when the chain's `CurrentPhase` at the header is `Some(v)`, differs from the
    shard's and decodes. -/
theorem update_storage_hook_on_phase_change (hhost : HonestHost env chain)
    (hp : PrefixesApart env.C) :
    (∀ (ext : State) (m : UpdateMap), NodupKeys m → ∀ k,
      get (setAll ext m) k = if k ∈ keys m then (get m k).join else get ext k) ∧
    (∀ (ext : State) (m : UpdateMap), updateStorage env.C env.R ext m =
      match phaseChange env.C ext m with
      | some phase => env.R.onCeremonyPhaseChange phase (setAll ext m)
      | none => setAll ext m) ∧
    (∀ (ext : State) (m : UpdateMap) (phase : CeremonyPhaseType),
      phaseChange env.C ext m = some phase ↔
        ∃ v, get m (currentPhaseKey env.C) = some (some v) ∧
          get ext (currentPhaseKey env.C) ≠ some v ∧ CeremonyPhaseType.decode v = some phase) ∧
    (∀ (header : Header H) (w : World H A) (bytes : Bytes) (shards : List H),
      chain header (shardsKeyHash env.C) = some bytes → env.decodeShards bytes = some shards →
      ∃ W : World H A, W.shardFiles = w.shardFiles ∧ W.aesKeyIv = w.aesKeyIv ∧
        updateStates env header w = updateShards env header
          (chainValues chain header (storageHashesToUpdateOnBlock env.C)) shards W) ∧
    (∀ (header : Header H) (s : H) (st : State) (w : World H A), w.aesKeyIv.length = 32 →
      Loads env s st w →
      ∃ W : World H A, W.shardFiles = (w.ensureFile s).shardFiles ∧ W.aesKeyIv = w.aesKeyIv ∧
        updateShard env header (chainValues chain header (storageHashesToUpdateOnBlock env.C)) s w =
          .ok () (W.setFile s (stateCiphertext env w.aesKeyIv (updateBlockNumber env.C
            (updateStorage env.C env.R
              (setAll st (chainValues chain header (storageHashesToUpdatePerShard env.C s)))
              (chainValues chain header (storageHashesToUpdateOnBlock env.C))) header.number)))) ∧
    (∀ (header : Header H) (s : H) (st : State) (phase : CeremonyPhaseType),
      phaseChange env.C (setAll st (chainValues chain header (storageHashesToUpdatePerShard env.C s)))
          (chainValues chain header (storageHashesToUpdateOnBlock env.C)) = some phase ↔
        ∃ v, chain header (currentPhaseKey env.C) = some v ∧
          get st (currentPhaseKey env.C) ≠ some v ∧ CeremonyPhaseType.decode v = some phase) := by
  refine ⟨fun ext m hm k => get_setAll hm ext k,
    fun ext m => updateStorage_eq_phaseChange env.C env.R ext m,
    fun ext m phase => phaseChange_eq_some_iff env.C ext m phase,
    fun header w bytes shards hlisted hdecode => updateStates_honest hhost header w hlisted hdecode,
    ?_, fun header s st phase => phaseChange_import hp header s st phase⟩
  -- the step: the per-shard map's `update_storage` is its set/clear loop
  intro header s st w hkey hload
  obtain ⟨W, hfiles, hkeyW, hstep⟩ := updateShard_honest hhost header _ hkey hload
  refine ⟨W, hfiles, hkeyW, ?_⟩
  rw [hstep, syncedState, updateStorage_perShard hp]

end Hook

/-! ## §5. An honest and a withholding host.

  A chain in `ATTESTING` that lists the one currency `1`; a `twox_128` that keeps the first
  sixteen bytes of a name, padded with zeros; states stored under their `Encodable` number.
  Every extrinsic decodes as a `call_worker` for shard `1` whose request decrypts to a
  registration (the examples of `Enclave.Guards`). -/

/-- `toyCodec` with a sixteen-byte `twox_128`. -/
def scheduleCodec : Codec Nat Nat :=
  { toyCodec with twox128 := fun x => (x ++ List.replicate 16 0).take 16 }

/-- The chain's storage: `CurrentPhase` is `ATTESTING`, the currencies are `[1]`. -/
def phaseValue (key : Bytes) : Option Bytes :=
  if key = currentPhaseKey scheduleCodec then some CeremonyPhaseType.attesting.encode
  else if key = shardsKeyHash scheduleCodec then some [1]
  else none

theorem phaseValue_currentPhase :
    phaseValue (currentPhaseKey scheduleCodec) = some CeremonyPhaseType.attesting.encode :=
  if_pos rfl

/-- The currencies' key is not the phase's: the pallets' names differ. -/
theorem shardsKeyHash_ne_currentPhaseKey :
    shardsKeyHash scheduleCodec ≠ currentPhaseKey scheduleCodec := by
  simp only [shardsKeyHash, currentPhaseKey, storageValueKey, toUTF8_toList]
  decide

theorem phaseValue_shards : phaseValue (shardsKeyHash scheduleCodec) = some [1] := by
  rw [phaseValue, if_neg shardsKeyHash_ne_currentPhaseKey, if_pos rfl]

/-- The same storage at every header. -/
def scheduleChain (_header : Header Nat) (key : Bytes) : Option Bytes := phaseValue key

/-- Every proof opens to the chain's value. -/
def scheduleSubstrate : Substrate Nat Nat :=
  { toySubstrate with checkProof := fun _ key _ => .ok (phaseValue key) }

/-- The host's answer to one request: the key, its value, an (empty) proof. -/
def answerFromChain : WorkerRequest Nat → WorkerResponse
  | .chainStorage key _ => .chainStorage key (phaseValue key) (some [])

/-- Reads a `countableCode` word back (`default` for anything else). -/
def decodeCountableCode {α : Type} [Encodable α] (default : α) (bytes : Bytes) : α :=
  ((decodeUnary 1 0 bytes).bind fun p => Encodable.decode p.1).getD default

theorem decodeCountableCode_countableCode {α : Type} [Encodable α] (default : α) (a : α) :
    decodeCountableCode default (countableCode a) = a := by
  unfold decodeCountableCode countableCode
  rw [← List.append_nil (unaryCode 1 0 (Encodable.encode a)), decodeUnary_unaryCode (by decide)]
  simp [Encodable.encodek]

/-- A registration for currency `1`, signed for shard `1`. -/
def registerCall : TrustedCallSigned Nat Nat := ⟨.ceremoniesRegisterParticipant 5 1 none, 0, []⟩

/-- The enclave of the examples, with a host that answers from the chain. -/
def honestEnv : Env Nat Nat Nat :=
  { toyEnv with
    S := scheduleSubstrate
    C := scheduleCodec
    host := fun _ req => .ok (req.map answerFromChain)
    decodeShards := fun bytes => some (bytes.map UInt8.toNat)
    decodeCallWorker := fun _ => some ⟨[SUBSRATEE_REGISTRY_MODULE, CALL_WORKER], ⟨1, []⟩⟩
    decodeTrustedCallSigned := fun _ => some registerCall
    encodeState := countableCode
    decodeState := decodeCountableCode [] }

/-- The same enclave, with a host that answers every request with nothing. -/
def withholdingEnv : Env Nat Nat Nat := { honestEnv with host := fun _ _ => .ok [] }

theorem scheduleCodec_prefixesApart : PrefixesApart scheduleCodec where
  width x := by
    simp only [scheduleCodec, List.length_take, List.length_append, List.length_replicate]
    omega
  -- the names' bytes differ within the first sixteen
  scheduler_currencies := by simp only [toUTF8_toList]; decide
  scheduler_system := by simp only [toUTF8_toList]; decide
  currentPhase_ceremonyMaster := by simp only [toUTF8_toList]; decide
  currentCeremonyIndex_ceremonyMaster := by simp only [toUTF8_toList]; decide

theorem honestEnv_honest : HonestHost honestEnv scheduleChain := by
  intro hist requested header
  refine ⟨requested.map fun key => .chainStorage key (phaseValue key) (some []), ?_, ?_, ?_⟩
  · -- the host answers each requested key from the chain
    show Except.ok ((requested.map _).map answerFromChain) = _
    rw [List.map_map]
    rfl
  · rw [List.map_map]
    rfl
  · intro r hr
    obtain ⟨key, -, rfl⟩ := List.mem_map.mp hr
    exact ⟨[], rfl, rfl⟩

theorem honestEnv_stateCodec : StateCodec honestEnv where
  decode_encode st := decodeCountableCode_countableCode [] st
  encode_ne_nil st := by simp [honestEnv, countableCode, unaryCode]

/-- No dispatch of `toyRuntime` succeeds, and its hook writes nothing. -/
theorem toyRuntime_keeps (k : Bytes) : toyRuntime.Keeps k where
  transfer _ _ _ _ _ _ h := by cases h
  registerParticipant _ _ _ _ _ h := by cases h
  registerAttestations _ _ _ _ h := by cases h
  grantReputation _ _ _ _ _ h := by cases h
  onCeremonyPhaseChange _ _ := rfl

/-- A state in `REGISTERING`. -/
def registeringState : State := [(currentPhaseKey scheduleCodec, CeremonyPhaseType.registering.encode)]

theorem get_registeringState :
    get registeringState (currentPhaseKey scheduleCodec) = some CeremonyPhaseType.registering.encode :=
  if_pos rfl

/-- **The hook runs at an honest import** that moves the chain to `ATTESTING`, for a shard in
    `REGISTERING`. -/
theorem hook_runs_at_honest_import :
    HonestHost honestEnv scheduleChain ∧ PrefixesApart honestEnv.C ∧
      phaseChange honestEnv.C
        (setAll registeringState
          (chainValues scheduleChain toyHeaderAtZero (storageHashesToUpdatePerShard honestEnv.C 1)))
        (chainValues scheduleChain toyHeaderAtZero (storageHashesToUpdateOnBlock honestEnv.C)) =
          some .attesting :=
  ⟨honestEnv_honest, scheduleCodec_prefixesApart,
    ((update_storage_hook_on_phase_change honestEnv_honest scheduleCodec_prefixesApart).2.2.2.2.2
      toyHeaderAtZero 1 registeringState .attesting).mpr
      ⟨CeremonyPhaseType.attesting.encode, phaseValue_currentPhase, by
        change get registeringState (currentPhaseKey scheduleCodec) ≠ _
        rw [get_registeringState]
        decide, rfl⟩⟩

/-- The world of the withholding example: shard `1` holds the `REGISTERING` state. -/
def registeringWorld : World Nat Nat :=
  { toyWorld with
    shardFiles := fun s => if s = 1 then
      some (stateCiphertext withholdingEnv toyWorld.aesKeyIv registeringState) else none }

/-- **A host that answers nothing suppresses the hook.**  The chain is in `ATTESTING` and
    lists shard `1` (as its proofs show), shard `1` holds a `REGISTERING` state, and the
    host answers the global request with no entry.  `update_states` returns `Ok` and writes
    no shard: shard `1` still loads its `REGISTERING` state, and the phase hook has not run
    at this import. -/
theorem withheld_phase_skips_hook :
    withholdingEnv.S.checkProof toyHeaderAtZero.stateRoot (currentPhaseKey withholdingEnv.C) [] =
        .ok (some CeremonyPhaseType.attesting.encode) ∧
      withholdingEnv.S.checkProof toyHeaderAtZero.stateRoot (shardsKeyHash withholdingEnv.C) [] =
        .ok (some [1]) ∧
      withholdingEnv.decodeShards [1] = some [1] ∧
      Loads withholdingEnv 1 registeringState registeringWorld ∧
      get registeringState (currentPhaseKey withholdingEnv.C) =
        some CeremonyPhaseType.registering.encode ∧
      ∃ w', updateStates withholdingEnv toyHeaderAtZero registeringWorld = .ok () w' ∧
        Loads withholdingEnv 1 registeringState w' := by
  have hblock : BlockCipher withholdingEnv := toyEnv_blockCipher
  have hcodec : StateCodec withholdingEnv :=
    ⟨honestEnv_stateCodec.decode_encode, honestEnv_stateCodec.encode_ne_nil⟩
  have hload : Loads withholdingEnv 1 registeringState registeringWorld :=
    loads_of_ciphertext hblock hcodec rfl rfl
  refine ⟨congrArg Except.ok phaseValue_currentPhase, congrArg Except.ok phaseValue_shards, rfl,
    hload, get_registeringState, _, rfl, ?_⟩
  -- the import only logged its request: shard `1`'s file is the one it had
  exact loads_congr (w := registeringWorld) rfl rfl hload

end EncointerWorker.Enclave
