import EncointerWorker.Enclave.Types

/-!
  EncointerWorker.Enclave.StateFile — the encrypted shard state files
  (`enclave/src/state.rs`, `enclave/src/aes.rs`).

  Every state file is encrypted by `aes::de_or_encrypt`: AES-128 in OFB mode under the one
  key and IV sealed in `AES_KEY_FILE_AND_INIT_V`.  So every write, of every shard, is the
  plaintext XOR the same keystream.

  Main results:
    * `stateWrite_run`, `stateLoad_stateWrite` — what `state::write` puts on disk and hashes,
      and that `state::load` reads the written state back.
    * `state_writes_leak_only_mask` — the host sees each write as the plaintext XOR one
      keystream fixed by the sealed key and IV; two runs whose plaintexts differ by one mask
      look the same under keystreams that differ by that mask.
    * `state_writes_two_time_pad` — two writes under the sealed key: the XOR of the two
      files is the XOR of the two plaintexts.
-/

namespace EncointerWorker.Enclave

open EncointerWorker.Relay EncointerWorker.Stf EncointerWorker.Lib.AssocMap
open EncointerWorker.Lib.Keystream

variable {H A Acc : Type}

/-! ## §1. `aes::de_or_encrypt` and the state files. -/

section Files

variable (env : Env H A Acc)

/-- `aes::de_or_encrypt` with the sealed `aes = key ++ iv`. -/
def deOrEncrypt (aes bytes : Bytes) : Except Fault Bytes :=
  -- `read_sealed` slices `aes[..16]`, which panics on a shorter file
  if aes.length < 16 then .error .panic
  -- `AesOfb::new_var` rejects an IV that is not one block
  else if (aes.drop 16).length ≠ 16 then .error (.status .errorUnexpected)
  else .ok (applyKeystream (env.aesEncryptBlock (aes.take 16)) (aes.drop 16) bytes)

/-- `Except Fault` into the monad. -/
def liftFault {α : Type} : Except Fault α → EnclaveM H A α
  | .ok a => pure a
  | .error e => throw e

/-- Write a shard's state file. -/
def World.setFile [DecidableEq H] (w : World H A) (shard : H) (bytes : Bytes) : World H A :=
  { w with shardFiles := fun s => if s = shard then some bytes else w.shardFiles s }

/-- `state::exists(shard)`. -/
def stateExists (shard : H) : EnclaveM H A Bool := do
  return ((← get).shardFiles shard).isSome

/-- `state::init_shard(shard)`: an empty state file. -/
def initShard [DecidableEq H] (shard : H) : EnclaveM H A Unit :=
  modify fun w => w.setFile shard []

/-- `state::read`: the file, decrypted unless empty (`io::read` fails on a missing file). -/
def stateRead (shard : H) : EnclaveM H A Bytes := do
  let w ← get
  match w.shardFiles shard with
  | none => fail .errorUnexpected
  | some [] => pure []
  | some bytes => liftFault (deOrEncrypt env w.aesKeyIv bytes)

/-- `state::load(shard)`: an empty file is a fresh `Stf::init_state`. -/
def stateLoad (shard : H) : EnclaveM H A State := do
  let stateVec ← stateRead env shard
  match stateVec with
  | [] => pure (initState env.C)
  | v => pure (env.decodeState v)

/-- `state::write(state, shard)`: encrypt, hash the ciphertext, write it; the hash is
    returned (and published in `CALL_CONFIRMED`). -/
def stateWrite [DecidableEq H] (state : State) (shard : H) : EnclaveM H A H := do
  let w ← get
  let cyphertext ← liftFault (deOrEncrypt env w.aesKeyIv (env.encodeState state))
  let stateHash := env.sha256 cyphertext
  set (w.setFile shard cyphertext)
  pure stateHash

end Files

/-! ## §2. What a write puts on disk. -/

section Spec

variable (env : Env H A Acc)

/-- The keystream of a sealed key and IV, cut at `len`. -/
def sealedKeystream (aes : Bytes) (len : Nat) : Bytes :=
  ofbKeystream (env.aesEncryptBlock (aes.take 16)) (aes.drop 16) len

/-- AES-128 returns one 16-byte block. -/
def BlockCipher (env : Env H A Acc) : Prop := ∀ key block, (env.aesEncryptBlock key block).length = 16

variable {env}

theorem blocks_nonempty (hblock : BlockCipher env) (key : Bytes) :
    ∀ x, 0 < (env.aesEncryptBlock key x).length := by
  intro x
  rw [hblock key x]
  decide

theorem deOrEncrypt_ok {aes : Bytes} (hkey : aes.length = 32) (bytes : Bytes) :
    deOrEncrypt env aes bytes =
      .ok (applyKeystream (env.aesEncryptBlock (aes.take 16)) (aes.drop 16) bytes) := by
  have hlong : ¬ aes.length < 16 := by omega
  have hiv : (aes.drop 16).length = 16 := by simp [hkey]
  simp [deOrEncrypt, hlong, hiv]

@[simp] theorem setFile_same [DecidableEq H] (w : World H A) (shard : H) (bytes : Bytes) :
    (w.setFile shard bytes).shardFiles shard = some bytes := by
  simp [World.setFile]

@[simp] theorem setFile_aesKeyIv [DecidableEq H] (w : World H A) (shard : H) (bytes : Bytes) :
    (w.setFile shard bytes).aesKeyIv = w.aesKeyIv := rfl

/-- **The spec of `state::write`** under a well-formed sealed key. -/
theorem stateWrite_run [DecidableEq H] {w : World H A} (hkey : w.aesKeyIv.length = 32)
    (state : State) (shard : H) :
    stateWrite env state shard w =
      let c := applyKeystream (env.aesEncryptBlock (w.aesKeyIv.take 16)) (w.aesKeyIv.drop 16)
        (env.encodeState state)
      .ok (env.sha256 c) (w.setFile shard c) := by
  simp only [stateWrite, run_bind, run_get, deOrEncrypt_ok hkey, liftFault, run_pure, run_set]

/-- `state::read` of a non-empty file decrypts it. -/
theorem stateRead_of_file {w : World H A} (hkey : w.aesKeyIv.length = 32) {shard : H}
    {bytes : Bytes} (hfile : w.shardFiles shard = some bytes) (hne : bytes ≠ []) :
    stateRead env shard w =
      .ok (applyKeystream (env.aesEncryptBlock (w.aesKeyIv.take 16)) (w.aesKeyIv.drop 16) bytes) w := by
  obtain ⟨b, bs, rfl⟩ := List.exists_cons_of_ne_nil hne
  simp only [stateRead, run_bind, run_get, hfile, deOrEncrypt_ok hkey, liftFault, run_pure]

/-- `state::load` of a non-empty plaintext decodes it. -/
theorem stateLoad_of_read {w : World H A} {shard : H} {v : Bytes}
    (hread : stateRead env shard w = .ok v w) (hne : v ≠ []) :
    stateLoad env shard w = .ok (env.decodeState v) w := by
  obtain ⟨b, bs, rfl⟩ := List.exists_cons_of_ne_nil hne
  simp only [stateLoad, run_bind, hread, run_pure]

/-- `state::load` reads the shard's file and the sealed key, nothing else of the world. -/
theorem stateLoad_congr {w w' : World H A} {shard : H}
    (hfile : w'.shardFiles shard = w.shardFiles shard) (hkey : w'.aesKeyIv = w.aesKeyIv)
    {state : State} (h : stateLoad env shard w = .ok state w) :
    stateLoad env shard w' = .ok state w' := by
  simp only [stateLoad, stateRead, run_bind, run_get, hfile, hkey] at h ⊢
  -- the same read on both worlds: a missing file fails, an empty one is fresh, others decrypt
  rcases hf : w.shardFiles shard with _ | _ | ⟨b, bs⟩
  · simp only [hf] at h
    cases h
  · simp only [hf, run_pure] at h ⊢
    injection h with hstate
    rw [hstate]
  · simp only [hf] at h ⊢
    cases hdec : deOrEncrypt env w.aesKeyIv (b :: bs) with
    | error e =>
      simp only [hdec, liftFault, run_throw] at h
      cases h
    | ok v =>
      simp only [hdec, liftFault, run_pure] at h ⊢
      -- an empty plaintext is a fresh state on both worlds, another one decodes
      rcases v with _ | ⟨c, cs⟩ <;>
      · injection h with hstate
        subst hstate
        rfl

/-- The file `state::write` writes for `state` under the sealed key and IV `aes`. -/
def stateCiphertext (env : Env H A Acc) (aes : Bytes) (state : State) : Bytes :=
  applyKeystream (env.aesEncryptBlock (aes.take 16)) (aes.drop 16) (env.encodeState state)

/-- `state::write` under a well-formed sealed key, through `stateCiphertext`. -/
theorem stateWrite_eq_ciphertext [DecidableEq H] {w : World H A} (hkey : w.aesKeyIv.length = 32)
    (state : State) (shard : H) :
    stateWrite env state shard w = .ok (env.sha256 (stateCiphertext env w.aesKeyIv state))
      (w.setFile shard (stateCiphertext env w.aesKeyIv state)) :=
  stateWrite_run hkey state shard

/-- The state codec reads back what it writes, and writes at least one byte (SCALE writes the
    length of the map first). -/
structure StateCodec (env : Env H A Acc) : Prop where
  decode_encode : ∀ state, env.decodeState (env.encodeState state) = state
  encode_ne_nil : ∀ state, env.encodeState state ≠ []

/-- `state::load` of a file `state::write` wrote decodes the written state. -/
theorem stateLoad_of_ciphertext (hblock : BlockCipher env) {w : World H A}
    (hkey : w.aesKeyIv.length = 32) {state : State} {shard : H}
    (hfile : w.shardFiles shard = some (stateCiphertext env w.aesKeyIv state))
    (hcodec : env.decodeState (env.encodeState state) = state)
    (hne : env.encodeState state ≠ []) :
    stateLoad env shard w = .ok state w := by
  have hround : applyKeystream (env.aesEncryptBlock (w.aesKeyIv.take 16)) (w.aesKeyIv.drop 16)
      (stateCiphertext env w.aesKeyIv state) = env.encodeState state :=
    applyKeystream_applyKeystream (blocks_nonempty hblock _) _ _
  have hcne : stateCiphertext env w.aesKeyIv state ≠ [] := by
    intro hnil
    rw [hnil] at hround
    exact hne (by simpa [applyKeystream] using hround.symm)
  have hread : stateRead env shard w = .ok (env.encodeState state) w := by
    rw [stateRead_of_file hkey hfile hcne, hround]
  rw [stateLoad_of_read hread hne, hcodec]

/-- `state::load` after `state::write` reads the written state back (the codec round trip
    assumed, for a state whose encoding is not empty). -/
theorem stateLoad_stateWrite [DecidableEq H] (hblock : BlockCipher env) {w w' : World H A}
    (hkey : w.aesKeyIv.length = 32) {state : State} {shard : H} {stateHash : H}
    (hwrite : stateWrite env state shard w = .ok stateHash w')
    (hcodec : env.decodeState (env.encodeState state) = state)
    (hne : env.encodeState state ≠ []) :
    stateLoad env shard w' = .ok state w' := by
  rw [stateWrite_run hkey] at hwrite
  -- the write is the only change: the world after it holds the ciphertext
  injection hwrite with _ hw'
  subst hw'
  exact stateLoad_of_ciphertext (w := w.setFile shard _) hblock hkey (setFile_same w shard _)
    hcodec hne

end Spec

/-! ## §3. What the host learns from the state files. -/

section Leakage

variable (env : Env H A Acc)

/-- What the host sees of one state write under `keystream`: the file, and its hash as
    published in `CALL_CONFIRMED`. -/
def hostView (keystream plaintext : Bytes) : Bytes × H :=
  let c := xorBytes plaintext keystream
  (c, env.sha256 c)

variable {env}

/-- **What the state files leak.**  Under a well-formed sealed key, every `state::write`, of
    every state and every shard, shows the host `hostView` of the plaintext under the one
    keystream of the sealed key and IV (cut at any length covering it); and two runs whose
    plaintexts differ by one mask `d` show the same views under keystreams that differ by
    `d`.  The files reveal the plaintexts' lengths and XOR differences, and nothing else. -/
theorem state_writes_leak_only_mask [DecidableEq H] (hblock : BlockCipher env) :
    (∀ (w : World H A), w.aesKeyIv.length = 32 → ∀ (state : State) (shard : H) (m : Nat),
      (env.encodeState state).length ≤ m →
      stateWrite env state shard w =
        .ok (hostView env (sealedKeystream env w.aesKeyIv m) (env.encodeState state)).2
          (w.setFile shard
            (hostView env (sealedKeystream env w.aesKeyIv m) (env.encodeState state)).1)) ∧
    (∀ (K d : Bytes) (ps : List Bytes), (∀ p ∈ ps, p.length ≤ d.length ∧ p.length ≤ K.length) →
      ps.map (hostView env K) =
        (ps.map fun p => xorBytes p d).map (hostView env (xorBytes K d))) := by
  constructor
  · intro w hkey state shard m hm
    -- the write's ciphertext is the plaintext XOR the longer keystream
    have hc : applyKeystream (env.aesEncryptBlock (w.aesKeyIv.take 16)) (w.aesKeyIv.drop 16)
        (env.encodeState state) = xorBytes (env.encodeState state) (sealedKeystream env w.aesKeyIv m) :=
      applyKeystream_eq_xorBytes (blocks_nonempty hblock _) _ _ hm
    rw [stateWrite_run hkey]
    simp only [hostView, hc]
  · intro K d ps hps
    rw [List.map_map]
    apply List.map_congr_left
    intro p hp
    obtain ⟨hd, hK⟩ := hps p hp
    simp only [Function.comp, hostView, ← xorBytes_mask hd hK]

end Leakage

/-! ## §4. A concrete enclave.

  Functions that behave as the enclave's externals do on the small inputs below: block
  hashes are block numbers, every storage proof proves absence, AES is a keyed mixing of one
  16-byte block. -/

/-- A substrate on `Nat` hashes whose proofs all prove a key absent. -/
def toySubstrate : Substrate Nat Nat where
  hash header := header.number
  hashOfExtrinsic xt := xt.length
  decodeConsensusLog _ := none
  checkProof _ _ _ := .ok none
  encodeAuthorityList _ := []
  voterSetNew _ := true
  verifyFinalizes _ _ _ _ _ := true

/-- One-byte encodings, identity hashers, and signatures that all verify. -/
def toyCodec : Codec Nat Nat where
  encodeAccount a := [a.toUInt8]
  encodeCid c := [c.toUInt8]
  encodeCall _ := []
  encodeGetter _ := []
  twox64 := id
  twox128 := id
  twox256 := id
  blake2_128 := id
  blake2_256 := id
  verify _ _ _ := true

/-- A runtime that rejects every dispatch, as the pallets do on a chain where no account
    holds funds and no currency is registered; the phase hook leaves the state.  The runs on
    it dispatch no call that could succeed (`Ledger` has a runtime that checks balances and
    currencies). -/
def toyRuntime : Runtime Nat Nat where
  transfer _ _ _ _ _ := .error ()
  registerParticipant _ _ _ _ := .error ()
  registerAttestations _ _ _ := .error ()
  grantReputation _ _ _ _ := .error ()
  onCeremonyPhaseChange _ st := st
  getState _ _ := none

def toyEnv : Env Nat Nat Nat where
  S := toySubstrate
  C := toyCodec
  R := toyRuntime
  host _ _ := .ok []
  mrenclave := []
  rsaDecrypt := .ok
  decodeTrustedCallSigned _ := none
  decodeCallWorker _ := none
  decodeShards _ := none
  encodeState st := (st.map Prod.snd).flatten
  decodeState _ := []
  sha256 c := c.length
  blake2_256 := id
  aesEncryptBlock key block := (xorBytes key block ++ List.replicate 16 0).take 16
  composeExtrinsic _ nonce _ := [nonce.toUInt8]
  encodeExtrinsics := List.flatten

theorem toyEnv_blockCipher : BlockCipher toyEnv := by
  intro key block
  simp [toyEnv]

/-- A fresh enclave with the sealed key `0, 1, …, 31`. -/
def toyWorld : World Nat Nat where
  sealedRelay := LightValidation.new
  shardFiles _ := none
  aesKeyIv := (List.range 32).map Nat.toUInt8
  requests := []
  trace := []

theorem state_writes_leak_only_mask_toy :
    BlockCipher toyEnv ∧
      [[1, 2], [3]].map (hostView toyEnv [5, 6]) =
        ([[1, 2], [3]].map fun p => xorBytes p [7, 7]).map (hostView toyEnv (xorBytes [5, 6] [7, 7])) :=
  ⟨toyEnv_blockCipher, (state_writes_leak_only_mask toyEnv_blockCipher).2 [5, 6] [7, 7] _ (by decide)⟩

/-- **Two writes share the keystream.**  The state `[1, 2, 3]` written to shard `1`, then
    `[4, 5, 6]` to shard `2`: the XOR of the two files on disk is the XOR of the two
    plaintexts. -/
theorem state_writes_two_time_pad :
    ∃ h₁ h₂ w₁ w₂, stateWrite toyEnv [([0], [1, 2, 3])] 1 toyWorld = .ok h₁ w₁ ∧
      stateWrite toyEnv [([0], [4, 5, 6])] 2 w₁ = .ok h₂ w₂ ∧
      xorBytes ((w₂.shardFiles 1).getD []) ((w₂.shardFiles 2).getD []) =
        xorBytes [1, 2, 3] [4, 5, 6] := by
  refine ⟨_, _, _, _, rfl, rfl, ?_⟩
  decide

end EncointerWorker.Enclave
